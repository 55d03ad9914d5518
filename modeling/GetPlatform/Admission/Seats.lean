import GetPlatform.Admission.Waitlist
import GetPlatform.Admission.Intake

set_option autoImplicit false

/-! # Seats when the capacity is edited

A school may set the capacity of an offer below the number of seats that are taken. An acceptance
counts the seats again. The promotion that follows when a seat is freed counts nothing: it hands the
seat on, however many too many there are. -/

namespace GetPlatform.Admission

open Prog

/-- Application `a` has a seat in `s'` that it does not have in `s`. -/
structure GainsSeat (s s' : World) (a : Application) : Prop where
  file : s'.applications.find? a.id = some a
  seat : a.status.occupies = true
  before : ∃ old, s.applications.find? a.id = some old ∧ old.status.occupies = false

/-- Whoever gets a seat between the two states gets one within the capacity in force. -/
def SeatsWithinCapacity (s s' : World) : Prop :=
  ∀ a, GainsSeat s s' a → ∀ offer, s'.offers.find? a.offerId = some offer →
    ∀ capacity ∈ offer.capacity, (occupied s'.applications a.offerId : Int) ≤ capacity

/-- Every capacity is one that the checks on an offer let through. -/
def WellSized (s : World) : Prop :=
  ∀ offer ∈ s.offers, ∀ capacity ∈ offer.capacity, 1 ≤ capacity

/-- If the decision frees a seat for which somebody waits, no more seats are taken than there are. -/
def RoomToPromote (s : World) (applicationId userId : Id) (status : ApplicationStatus) : Prop :=
  ∀ row, Loaded s applicationId row → Manages s row userId → ValidTransition row.status status →
    freesASeat row.status status = true → s.firstWaitlisted row.offerId ≠ [] →
    ∀ capacity ∈ row.offer.capacity, (occupied s.applications row.offerId : Int) ≤ capacity

instance (s : World) (application : ApplicationWithOffer) (userId : Id) :
    Decidable (Manages s application userId) :=
  inferInstanceAs (Decidable (_ ∨ _))

instance (s : World) (applicationId userId : Id) (status : ApplicationStatus) :
    Decidable (RoomToPromote s applicationId userId status) :=
  decidable_of_iff
    (∀ row ∈ (exec (.applicationFindUnique applicationId) (.nat 0) s).join, Manages s row userId →
      ValidTransition row.status status → freesASeat row.status status = true →
      s.firstWaitlisted row.offerId ≠ [] → ∀ capacity ∈ row.offer.capacity,
        (occupied s.applications row.offerId : Int) ≤ capacity)
    (forall_congr' fun row => by
      rw [Option.mem_def, Option.join_eq_some_iff, loaded_iff])

/-- No decision hands on a seat of an offer that has too many taken. -/
def roomToPromote : TurnRule desk DeskOp Err DeskReply := fun _ s o _ =>
  match o with
  | .usual (.updateStatus applicationId dto userId) => RoomToPromote s applicationId userId dto.status
  | _ => True

instance (h : List (Turn desk DeskOp Err DeskReply)) (s : World) (o : DeskOp)
    (cs : List (Except Failure Choice)) : Decidable (roomToPromote h s o cs) := by
  unfold roomToPromote
  split <;> infer_instance

def DeskOp.decides : DeskOp → Bool
  | .usual o => o.decides
  | _ => false

/-! ## Capacities stay well sized -/

theorem wellSized_applyDesk (w : Write ⊕ DeskWrite) {s : World} (h : WellSized s) :
    WellSized (desk.apply w s) := by
  rcases w with w | w
  · have hoffers : (World.apply w s).offers = s.offers := by cases w <;> rfl
    intro offer hoffer
    exact h offer (hoffers ▸ hoffer)
  · cases w with
    | newApplication row => exact h
    | offer id dto =>
        intro offer hoffer capacity hcapacity
        replace hoffer : offer ∈ s.offers.modify id dto.set dto.key_set := hoffer
        obtain ⟨old, hold, rfl⟩ := Table.mem_modify.1 hoffer
        split at hcapacity
        · cases hgiven : dto.capacity with
          | none => exact h old hold capacity (by simpa [UpdateOfferDto.set, hgiven] using hcapacity)
          | some given =>
              obtain rfl : given = some capacity := by
                simpa [UpdateOfferDto.set, hgiven] using hcapacity
              exact dto.capacity_min capacity hgiven
        · exact h old hold capacity hcapacity

theorem wellSized_of_run {R : TurnRule desk DeskOp Err DeskReply} {s₀ s : World}
    {h : List (Turn desk DeskOp Err DeskReply)} (h₀ : WellSized s₀) (hrun : DeskRun R s₀ h s) :
    WellSized s := by
  induction hrun with
  | start => exact h₀
  | turn o cs _ _ halone ih =>
      exact alone_keeps (I := WellSized) (fun w _ => wellSized_applyDesk w) halone ih ih
  | env e _ ih => exact ih

/-! ## One decision -/

section Decision

variable {s s' : World} {applicationId : Id} {status : ApplicationStatus}

theorem limit_of_capacity {offer : Offer} {capacity : Int} (hcapacity : capacity ∈ offer.capacity)
    (hpos : 1 ≤ capacity) : capacity ∈ offer.limit := by
  have hne : capacity ≠ 0 := by omega
  simp only [Offer.limit, Option.mem_def.1 hcapacity, Option.filter_some]
  simp [hne]

/-- An acceptance that counted the seats leaves no more of them taken than there are. -/
theorem within_of_moved {app : Application} {data : ApplicationData} (hsized : WellSized s)
    (hfind : s.applications.find? applicationId = some app) (hdata : data.status = status)
    (hvalid : ValidTransition app.status status) (hfree : SeatFree s app status)
    (happs : s'.applications = setApplication s.applications (applicationId, data))
    (hoffers : s'.offers = s.offers) : SeatsWithinCapacity s s' := by
  intro a ⟨hfile, hseat, old, hold, hnot⟩ offer hoffer capacity hcapacity
  have hid : app.id = applicationId := Table.key_of_find? hfind
  obtain ⟨app₀, happ₀, ⟨hsame, rfl⟩ | ⟨-, rfl⟩⟩ := of_setApplication (happs ▸ hfile)
  · -- The application that gains the seat is the one decided on.
    obtain rfl := Option.some.inj (happ₀.symm.trans (hsame ▸ hfind))
    obtain rfl := Option.some.inj (hold.symm.trans happ₀)
    have hstatus : status.occupies = true := hdata ▸ hseat
    obtain ⟨haccepted, hne⟩ := accepted_of_valid hvalid hnot hstatus
    have hoffer : s.offers.find? old.offerId = some offer := hoffers ▸ hoffer
    have hpos := hsized offer (Table.mem_of_find? hoffer) capacity hcapacity
    have hlt := hfree haccepted hne offer hoffer capacity (limit_of_capacity hcapacity hpos)
    have hone := occupied_gains (hid ▸ hfind) data hnot hseat
    rw [hid, ← happs] at hone
    show (occupied s'.applications old.offerId : Int) ≤ capacity
    omega
  · rw [Option.some.inj (hold.symm.trans happ₀), hseat] at hnot
    cases hnot

/-- A seat that is handed on is within the capacity, if the seats that were taken were. -/
theorem within_of_promoted {app next : Application} {data data' : ApplicationData} {offer₀ : Offer}
    (hfind : s.applications.find? applicationId = some app)
    (hoffer₀ : s.offers.find? app.offerId = some offer₀)
    (hfrees : freesASeat app.status data.status = true)
    (hnext : next ∈ s.firstWaitlisted app.offerId) (hdata' : data'.status = .ACCEPTED)
    (happs : s'.applications =
      setApplication (setApplication s.applications (applicationId, data)) (next.id, data'))
    (hroom : ∀ capacity ∈ offer₀.capacity,
      (occupied s.applications app.offerId : Int) ≤ capacity)
    (hoffers : s'.offers = s.offers) : SeatsWithinCapacity s s' := by
  intro a ⟨hfile, hseat, old, hold, hnot⟩ offer hoffer capacity hcapacity
  obtain ⟨mid, hmid, hcase⟩ := of_setApplication (happs ▸ hfile)
  obtain ⟨app₀, happ₀, hcase₀⟩ := of_setApplication hmid
  have hsame : app₀ = old := Option.some.inj (happ₀.symm.trans hold)
  have hkept : a.offerId = app₀.offerId := by
    rcases hcase with ⟨-, rfl⟩ | ⟨-, rfl⟩ <;> rcases hcase₀ with ⟨-, rfl⟩ | ⟨-, rfl⟩ <;> rfl
  -- Three applications: the one promoted, the one decided on, and any other.
  rcases hcase with ⟨hid, -⟩ | ⟨-, rfl⟩
  · obtain ⟨⟨hmem, hoff, -⟩, -⟩ := mem_firstWaitlisted.1 hnext
    have hnextFind : s.applications.find? next.id = some next := Table.find?_key hmem
    obtain rfl := Option.some.inj ((hid ▸ hnextFind).symm.trans happ₀)
    rw [hkept, hoff, hoffers] at hoffer
    obtain rfl := Option.some.inj (hoffer.symm.trans hoffer₀)
    rw [hkept, hoff, happs, occupied_handed hfind hfrees hnext hdata']
    exact hroom capacity hcapacity
  · rcases hcase₀ with ⟨-, rfl⟩ | ⟨-, rfl⟩
    · have hgiven := (not_occupies_of_freesASeat hfrees).2
      rw [show data.status.occupies = true from hseat] at hgiven
      cases hgiven
    · rw [← hsame, hseat] at hnot
      cases hnot

theorem within_of_same (happs : s'.applications = s.applications) : SeatsWithinCapacity s s' := by
  intro a ⟨hfile, hseat, old, hold, hnot⟩
  rw [happs, hold, Option.some.injEq] at hfile
  rw [hfile, hseat] at hnot
  cases hnot

/-- A decision that changes an application has checked the transition. -/
theorem Decided.same_or_valid (h : Decided s applicationId status s') :
    s'.applications = s.applications ∨
      ∃ app, s.applications.find? applicationId = some app ∧ ValidTransition app.status status := by
  cases h with
  | untouched happs => exact .inl happs
  | moved hfile _ hvalid => exact .inr ⟨_, hfile, hvalid⟩
  | notEnrolled hfile _ hvalid => exact .inr ⟨_, hfile, hvalid⟩
  | enrolled hfile _ hvalid => exact .inr ⟨_, hfile, hvalid⟩
  | promoted hfile _ hvalid => exact .inr ⟨_, hfile, hvalid⟩

theorem Ruled.seatsWithinCapacity {row : ApplicationWithOffer} (hsized : WellSized s)
    (hfound : Loaded s applicationId row) (hruled : Ruled s applicationId status s')
    (hroom : freesASeat row.status status = true → s.firstWaitlisted row.offerId ≠ [] →
      ∀ capacity ∈ row.offer.capacity,
        (occupied s.applications row.offerId : Int) ≤ capacity)
    (hoffers : s'.offers = s.offers) : SeatsWithinCapacity s s' := by
  cases hruled with
  | untouched happs _ => exact within_of_same happs
  | moved hfind hdata hvalid hfree _ happs =>
      exact within_of_moved hsized hfind hdata hvalid hfree happs hoffers
  | promoted hfind hdata hfrees hnext hdata' happs =>
      obtain rfl := Option.some.inj (hfound.file.symm.trans hfind)
      exact within_of_promoted hfind hfound.offer (hdata ▸ hfrees) hnext hdata' happs
        (hroom hfrees (List.ne_nil_of_mem hnext)) hoffers

end Decision

/-! ## Every run -/

theorem eq_of_deskDecides {o : DeskOp} (h : o.decides = true) :
    ∃ applicationId dto userId, o = .usual (.updateStatus applicationId dto userId) := by
  cases o with
  | usual o =>
      obtain ⟨applicationId, dto, userId, rfl⟩ := eq_of_decides h
      exact ⟨applicationId, dto, userId, rfl⟩
  | _ => cases h

/-- **No admission beyond the capacity in force.** In every run of decisions, edits of offers and the
    other calls, in which no decision hands on a seat of an offer that has too many taken, whoever a
    decision puts in a seat gets one within the capacity that the offer has then. -/
theorem seats_within_capacity {s₀ s : World} {h : List (Turn desk DeskOp Err DeskReply)}
    (h₀ : WellSized s₀) (hrun : DeskRun roomToPromote s₀ h s) :
    ∀ t ∈ h, t.op.decides = true → SeatsWithinCapacity t.before t.after := by
  induction hrun with
  | start => simp
  | env e _ ih => exact ih
  | @turn h s s' r o cs hbefore hroom halone ih =>
      intro t ht hdecides
      rcases List.mem_cons.1 ht with rfl | ht
      · obtain ⟨applicationId, dto, userId, rfl⟩ := eq_of_deskDecides hdecides
        have hsized : WellSized s := wellSized_of_run h₀ hbefore
        obtain ⟨reply, hcall⟩ := alone_of_usual halone
        have hoffers : s'.offers = s.offers :=
          alone_frame World.offers (fun w s => by cases w <;> rfl) hcall rfl
        obtain ⟨_, hout⟩ := alone_of_map hcall
        refine @wp_alone _ _ _ model (fun _ s' => s'.offers = s.offers → SeatsWithinCapacity s s')
          _ none s ?_ _ _ _ hout hoffers
        refine updateStatus_wp (fun _ => within_of_same rfl)
          fun row s' hfound hmanages hdecided hruled hoffers => ?_
        rcases hdecided.same_or_valid with hsame | ⟨app, hfile, hvalid⟩
        · exact within_of_same hsame
        · obtain rfl := Option.some.inj (hfound.file.symm.trans hfile)
          exact hruled.seatsWithinCapacity hsized hfound (hroom row hfound hmanages hvalid) hoffers
      · exact ih t ht hdecides

/-- Two of three seats are taken, and application 3 waits. -/
def threeSeats : World :=
  { World.empty with
    users := .ofList [⟨9, some .ADMIN_GET, none⟩]
    students := .ofList [⟨11, 21⟩, ⟨12, 22⟩, ⟨13, 23⟩]
    offers := .ofList [⟨5, 7, none, 100, some 3, none, true, none⟩]
    applications := .ofList
      [⟨1, 11, 5, .ACCEPTED, none, none, none, none, none, none, 0⟩,
       ⟨2, 12, 5, .ENROLLED, none, none, none, none, none, none, 1⟩,
       ⟨3, 13, 5, .WAITLISTED, none, none, none, none, none, none, 2⟩] }

/-- The capacity is set to `capacity`, and then application 1 is cancelled. -/
def shrinkThenCancel (capacity : Int) (h : 1 ≤ capacity) :
    List (DeskOp × List (Except Failure Choice)) :=
  [(.updateOffer 5 { capacity := some (some capacity), capacity_min := by simp; omega } 9,
      List.replicate 20 (.ok (.nat 0))),
   (.usual (.updateStatus 1 { status := .CANCELLED } 9), List.replicate 20 (.ok (.nat 0)))]

/-- The last turn is a decision that puts application 3 into a seat of an offer of `capacity` seats,
    and afterwards two are taken. -/
def promotesThird (capacity : Int) : List (Turn desk DeskOp Err DeskReply) → Bool
  | t :: _ =>
      t.op.decides && (t.before.applications.find? 3).any (·.status = .WAITLISTED) &&
        (t.after.applications.find? 3).any (fun a => a.status = .ACCEPTED ∧ a.offerId = 5) &&
        (t.after.offers.find? 5).any (·.capacity = some capacity) &&
        decide (occupied t.after.applications 5 = 2)
  | [] => false

theorem wellSized_threeSeats : WellSized threeSeats := by
  intro offer hoffer capacity hcapacity
  obtain rfl := List.mem_singleton.1 hoffer
  obtain rfl := Option.some.inj hcapacity
  decide

/-- With the capacity set to two, the seat that is freed is handed on within it. -/
theorem seats_within_capacity_two : ∃ h s, DeskRun roomToPromote threeSeats h s ∧
    promotesThird 2 h = true ∧
    ∀ t ∈ h, t.op.decides = true → SeatsWithinCapacity t.before t.after := by
  have hplay : ((Journal.play (M := desk) deskProgram roomToPromote [] threeSeats
      (shrinkThenCancel 2 (by decide))).any fun out => promotesThird 2 out.1) = true := by
    decide +kernel
  obtain ⟨h, s, hrun, hthird⟩ := Journal.exists_of_play hplay
  exact ⟨h, s, hrun, hthird, seats_within_capacity wellSized_threeSeats hrun⟩

/-- With the capacity set to one, it is handed on all the same. -/
theorem not_seats_within_capacity :
    ¬ ∀ (s₀ s : World) (h : List (Turn desk DeskOp Err DeskReply)), WellSized s₀ →
      DeskRun anyTurn s₀ h s →
      ∀ t ∈ h, t.op.decides = true → SeatsWithinCapacity t.before t.after := by
  intro hall
  have hplay : ((Journal.play (M := desk) deskProgram anyTurn [] threeSeats
      (shrinkThenCancel 1 (by decide))).any fun out => promotesThird 1 out.1) = true := by
    decide +kernel
  obtain ⟨h, s, hrun, hthird⟩ := Journal.exists_of_play hplay
  cases h with
  | nil => cases hthird
  | cons t h =>
      simp only [promotesThird, Bool.and_eq_true] at hthird
      obtain ⟨⟨⟨⟨hdecides, hwaits⟩, hseated⟩, hsized⟩, htwo⟩ := hthird
      obtain ⟨old, hold, hwaits⟩ := (Option.any_eq_true ..).1 hwaits
      obtain ⟨a, hfile, hseated⟩ := (Option.any_eq_true ..).1 hseated
      obtain ⟨offer, hoffer, hsized⟩ := (Option.any_eq_true ..).1 hsized
      obtain ⟨haccepted, hof⟩ := of_decide_eq_true hseated
      have hid : a.id = 3 := Table.key_of_find? hfile
      have hgains : GainsSeat t.before t.after a :=
        ⟨hid ▸ hfile, by simp [haccepted, ApplicationStatus.occupies],
          old, hid ▸ hold, by simp [of_decide_eq_true hwaits, ApplicationStatus.occupies]⟩
      have hle := hall _ _ _ wellSized_threeSeats hrun t (.head _) hdecides a hgains offer
        (hof ▸ hoffer) 1 (of_decide_eq_true hsized)
      rw [hof, of_decide_eq_true htwo] at hle
      exact absurd hle (by decide)

end GetPlatform.Admission
