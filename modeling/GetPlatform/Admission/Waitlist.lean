import Mathlib.Order.Minimal
import GetPlatform.Admission.Admitted
import GetPlatform.Admission.StatusMachine

set_option autoImplicit false

/-! # Freeing a seat

A decision that takes an applicant out of a seat hands the seat on to the first applicant who waits
for it. No other decision promotes anybody. -/

namespace GetPlatform.Admission

open Prog

/-- The application waits for a seat of the offer. -/
def Waits (s : World) (offerId : Id) (a : Application) : Prop :=
  a ∈ s.applications ∧ a.offerId = offerId ∧ a.status = .WAITLISTED

/-- Application `app` has lost its seat between the two states. -/
def LosesSeat (s s' : World) (app : Application) : Prop :=
  s.applications.find? app.id = some app ∧ app.status.occupies = true ∧
    (statusOf s' app.id = some .CANCELLED ∨ statusOf s' app.id = some .REJECTED)

/-- What becomes of the seat that `app` has lost: the first applicant who waits gets it, and the number
    of occupied seats is the same; if nobody waits it is one less. Nobody else moves. -/
inductive Handed (s s' : World) (app : Application) : Prop
  | on (next : Application) : Waits s app.offerId next →
      (∀ w, Waits s app.offerId w → next.submittedAt ≤ w.submittedAt) →
      next.id ≠ app.id → statusOf s' next.id = some .ACCEPTED →
      occupied s'.applications app.offerId = occupied s.applications app.offerId →
      (∀ id, id ≠ app.id → id ≠ next.id → statusOf s' id = statusOf s id) → Handed s s' app
  | back : (∀ w, ¬ Waits s app.offerId w) →
      occupied s'.applications app.offerId + 1 = occupied s.applications app.offerId →
      (∀ id, id ≠ app.id → statusOf s' id = statusOf s id) → Handed s s' app

/-- What a decision on an application does to the waiting list. -/
structure KeepsOrder (s s' : World) (applicationId : Id) : Prop where
  freed : ∀ app, app.id = applicationId → LosesSeat s s' app → Handed s s' app
  otherwise : (∀ app, app.id = applicationId → ¬ LosesSeat s s' app) →
    ∀ id, id ≠ applicationId → statusOf s' id = statusOf s id

/-! ## The first who waits -/

theorem mem_firstWaitlisted {s : World} {offerId : Id} {a : Application} :
    a ∈ s.firstWaitlisted offerId ↔
      Waits s offerId a ∧ ∀ w, Waits s offerId w → a.submittedAt ≤ w.submittedAt := by
  simp only [World.firstWaitlisted, List.mem_filter, List.all_eq_true, decide_eq_true_eq, Waits,
    Table.mem_def]

/-- If anybody waits, somebody is the first. -/
theorem not_waits_of_nil {s : World} {offerId : Id} (h : s.firstWaitlisted offerId = []) :
    ∀ w, ¬ Waits s offerId w := by
  intro w hw
  obtain ⟨a, ha, hmin⟩ :=
    exists_minimalFor_of_wellFoundedLT (Waits s offerId) Application.submittedAt ⟨w, hw⟩
  have hfirst : a ∈ s.firstWaitlisted offerId := by
    refine mem_firstWaitlisted.2 ⟨ha, fun v hv => ?_⟩
    rcases Nat.le_total a.submittedAt v.submittedAt with hle | hle
    · exact hle
    · exact hmin hv hle
  rw [h] at hfirst
  cases hfirst

/-! ## Statuses after an update -/

section Update

variable {s s' : World} {apps : Table Application} {u : Id × ApplicationData}

theorem find?_setApplication_ne {id : Id} (h : id ≠ u.1) :
    (setApplication apps u).find? id = apps.find? id :=
  Table.find?_modify_ne _ _ u.2.key_set h

theorem find?_setApplication_self {app : Application} (h : apps.find? u.1 = some app) :
    (setApplication apps u).find? u.1 = some (u.2.set app) := by
  rw [setApplication, Table.find?_modify_self _ _ _ u.2.key_set, h]
  rfl

theorem statusOf_eq {app : Application} (h : s.applications.find? app.id = some app) :
    statusOf s app.id = some app.status := by
  rw [statusOf, h]
  rfl

/-- A decision that leaves the applications as they were takes no seat. -/
theorem not_losesSeat {app : Application} (h : statusOf s' app.id = statusOf s app.id) :
    ¬ LosesSeat s s' app := by
  rintro ⟨hfind, hseat, hnext⟩
  rw [h, statusOf_eq hfind, Option.some.injEq, Option.some.injEq] at hnext
  rcases hnext with hst | hst <;> simp [hst, ApplicationStatus.occupies] at hseat

/-- The seat of an application that loses it is free, as far as this application goes. -/
theorem occupied_loses {app : Application} (hfind : apps.find? app.id = some app)
    (data : ApplicationData) (hold : app.status.occupies = true)
    (hnew : data.status.occupies = false) :
    occupied (setApplication apps (app.id, data)) app.offerId + 1 = occupied apps app.offerId := by
  have hset := occupied_set (u := (app.id, data)) hfind app.offerId
  have hseated : seated app.offerId app = true := by simp [seated, hold]
  have hfree : seated app.offerId (data.set app) = false := by
    simp [seated, ApplicationData.set, hnew]
  simpa [hseated, hfree] using hset

theorem occupied_gains {app : Application} (hfind : apps.find? app.id = some app)
    (data : ApplicationData) (hold : app.status.occupies = false)
    (hnew : data.status.occupies = true) :
    occupied (setApplication apps (app.id, data)) app.offerId = occupied apps app.offerId + 1 := by
  have hset := occupied_set (u := (app.id, data)) hfind app.offerId
  have hfree : seated app.offerId app = false := by simp [seated, hold]
  have hseated : seated app.offerId (data.set app) = true := by
    simp [seated, ApplicationData.set, hnew]
  simpa [hseated, hfree] using hset

end Update

theorem freesASeat_iff {st st' : ApplicationStatus} :
    freesASeat st st' = true ↔ st.occupies = true ∧ (st' = .CANCELLED ∨ st' = .REJECTED) := by
  cases st <;> cases st' <;> decide

/-! ## One decision -/

section Decision

variable {s s' : World} {applicationId : Id} {status : ApplicationStatus}

/-- A decision that changes one application: it hands a seat back, if nobody waits for it. -/
theorem keepsOrder_of_moved {app : Application} {data : ApplicationData}
    (hfind : s.applications.find? applicationId = some app) (hdata : data.status = status)
    (hnobody : freesASeat app.status status = true → s.firstWaitlisted app.offerId = [])
    (happs : s'.applications = setApplication s.applications (applicationId, data)) :
    KeepsOrder s s' applicationId := by
  have hid : app.id = applicationId := Table.key_of_find? hfind
  have hother : ∀ id, id ≠ applicationId → statusOf s' id = statusOf s id := by
    intro id hne
    rw [statusOf, statusOf, happs, find?_setApplication_ne hne]
  refine ⟨fun app' hid' hloses => ?_, fun _ => hother⟩
  obtain ⟨hfind', hseat, hlost⟩ := hloses
  obtain rfl : app' = app := Option.some.inj ((hid' ▸ hfind').symm.trans hfind)
  have hstatus : statusOf s' app'.id = some status := by
    rw [statusOf, happs, hid, find?_setApplication_self hfind, Option.map_some, ← hdata]
    rfl
  rw [hstatus, Option.some.injEq, Option.some.injEq] at hlost
  have hfrees : freesASeat app'.status status = true := freesASeat_iff.2 ⟨hseat, hlost⟩
  refine .back (not_waits_of_nil (hnobody hfrees)) ?_ fun id hne => hother id (hid ▸ hne)
  rw [happs, ← hid]
  exact occupied_loses (hid ▸ hfind) data hseat (hdata ▸ (not_occupies_of_freesASeat hfrees).2)

/-- The one who waits is not the one who has a seat. -/
theorem next_ne {app next : Application} (hfind : s.applications.find? applicationId = some app)
    (hseat : app.status.occupies = true) (hnext : next ∈ s.firstWaitlisted app.offerId) :
    next.id ≠ applicationId := by
  obtain ⟨⟨hmem, -, hwaits⟩, -⟩ := mem_firstWaitlisted.1 hnext
  have hnextFind : s.applications.find? next.id = some next := Table.find?_key hmem
  intro heq
  obtain rfl := Option.some.inj ((heq ▸ hnextFind).symm.trans hfind)
  simp [hwaits, ApplicationStatus.occupies] at hseat

/-- A seat that is handed on leaves as many seats taken as before. -/
theorem occupied_handed {app next : Application} {data data' : ApplicationData}
    (hfind : s.applications.find? applicationId = some app)
    (hfrees : freesASeat app.status data.status = true)
    (hnext : next ∈ s.firstWaitlisted app.offerId) (hdata' : data'.status = .ACCEPTED) :
    occupied (setApplication (setApplication s.applications (applicationId, data)) (next.id, data'))
      app.offerId = occupied s.applications app.offerId := by
  have hid : app.id = applicationId := Table.key_of_find? hfind
  obtain ⟨⟨hmem, hoffer, hwaits⟩, -⟩ := mem_firstWaitlisted.1 hnext
  obtain ⟨hseat, hnew⟩ := not_occupies_of_freesASeat hfrees
  have hnextFind : (setApplication s.applications (applicationId, data)).find? next.id =
      some next := by
    rw [find?_setApplication_ne (next_ne hfind hseat hnext)]
    exact Table.find?_key hmem
  -- One seat less, and one more.
  have hlost := occupied_loses (hid ▸ hfind) data hseat hnew
  have hgains := occupied_gains hnextFind data'
    (by simp [hwaits, ApplicationStatus.occupies]) (by simp [hdata', ApplicationStatus.occupies])
  rw [hid] at hlost
  rw [hoffer] at hgains
  omega

/-- A decision that hands a seat on. -/
theorem keepsOrder_of_promoted {app next : Application} {data data' : ApplicationData}
    (hfind : s.applications.find? applicationId = some app) (hdata : data.status = status)
    (hfrees : freesASeat app.status status = true) (hnext : next ∈ s.firstWaitlisted app.offerId)
    (hdata' : data'.status = .ACCEPTED)
    (happs : s'.applications =
      setApplication (setApplication s.applications (applicationId, data)) (next.id, data')) :
    KeepsOrder s s' applicationId := by
  have hid : app.id = applicationId := Table.key_of_find? hfind
  obtain ⟨hwaits, hfirst⟩ := mem_firstWaitlisted.1 hnext
  obtain ⟨hseat, hnew⟩ := not_occupies_of_freesASeat hfrees
  have hne : next.id ≠ applicationId := next_ne hfind hseat hnext
  have hnextFind : (setApplication s.applications (applicationId, data)).find? next.id =
      some next := by
    rw [find?_setApplication_ne hne]
    exact Table.find?_key hwaits.1
  have hstatus : statusOf s' applicationId = some status := by
    rw [statusOf, happs, find?_setApplication_ne hne.symm, find?_setApplication_self hfind,
      Option.map_some, ← hdata]
    rfl
  have hloses : LosesSeat s s' app := by
    rw [LosesSeat, hid, hstatus]
    exact ⟨hfind, hseat, (freesASeat_iff.1 hfrees).2.imp (congrArg some) (congrArg some)⟩
  refine ⟨fun app' hid' hloses' => ?_, fun hno => absurd hloses (hno app hid)⟩
  obtain rfl : app' = app := Option.some.inj ((hid' ▸ hloses'.1).symm.trans hfind)
  refine .on next hwaits hfirst (hid ▸ hne) ?_ ?_ fun id hnot hnot' => ?_
  · rw [statusOf, happs, find?_setApplication_self hnextFind, Option.map_some, ← hdata']
    rfl
  · rw [happs]
    exact occupied_handed hfind (hdata ▸ hfrees) hnext hdata'
  · rw [statusOf, statusOf, happs, find?_setApplication_ne hnot', find?_setApplication_ne (hid ▸ hnot)]

theorem Ruled.keepsOrder (h : Ruled s applicationId status s') : KeepsOrder s s' applicationId := by
  cases h with
  | untouched happs _ =>
      have hsame : ∀ id, statusOf s' id = statusOf s id := fun id => by rw [statusOf, statusOf, happs]
      exact ⟨fun app _ hloses => absurd hloses (not_losesSeat (hsame _)), fun _ id _ => hsame id⟩
  | moved hfind hdata _ _ hnobody happs => exact keepsOrder_of_moved hfind hdata hnobody happs
  | promoted hfind hdata hfrees hnext hdata' happs =>
      exact keepsOrder_of_promoted hfind hdata hfrees hnext hdata' happs

end Decision

/-- **The order of the waiting list.** In every state, a decision that takes an applicant out of a seat
    hands it on to a waitlisted applicant of the offer who applied first, so that as many seats are
    occupied as before, or leaves one seat free if nobody waits. Nobody else moves, and no other
    decision promotes anybody. -/
theorem waitlist_order (s : World) (applicationId userId : Id) (dto : UpdateApplicationStatusDto) :
    (updateStatus applicationId dto userId).wp model
      (fun _ _ s' => KeepsOrder s s' applicationId) (fun _ _ s' => KeepsOrder s s' applicationId)
      none s := by
  have hsame : Ruled s applicationId dto.status s := .untouched rfl rfl
  exact updateStatus_wp hsame.keepsOrder fun _ _ _ _ _ hruled => hruled.keepsOrder

end GetPlatform.Admission
