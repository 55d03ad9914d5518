import GetPlatform.Admission.Frames

set_option autoImplicit false

/-! # The capacity of an offer

`updateStatus` counts the occupied seats inside a serializable transaction before it accepts an
applicant. Two of its writes are not counted: the promotion that follows a seat being freed, and the
enrolment of an applicant who is accepted already. Both rely on the status the call read before its
transaction. Capacity holds in every run in which that status is still an occupying one when the
transaction commits, or a seat is free; when it is neither, the commit overbooks the offer. -/

namespace GetPlatform.Admission

open Pool

/-- Does the application occupy a seat of the offer? -/
def seated (offerId : Id) (a : Application) : Bool := a.offerId = offerId ∧ a.status.occupies

/-- The number of applications of an offer that are ACCEPTED or ENROLLED. -/
def occupied (apps : Table Application) (offerId : Id) : Nat := apps.count (seated offerId)

theorem applicationCount_eq (c : Choice) {s : World} {offerId : Id} {n : Nat}
    (h : exec (.applicationCount offerId [.ACCEPTED, .ENROLLED]) c s = some n) :
    n = occupied s.applications offerId := by
  simp only [exec, Option.some.injEq] at h
  rw [← h, occupied]
  congr 1
  funext a
  simp [seated, ApplicationStatus.occupies]

/-- One update moves the number of occupied seats by the application it is about. -/
theorem occupied_set {apps : Table Application} {u : Id × ApplicationData} {app : Application}
    (h : apps.find? u.1 = some app) (offerId : Id) :
    occupied (setApplication apps u) offerId + (if seated offerId app then 1 else 0) =
      occupied apps offerId + (if seated offerId (u.2.set app) then 1 else 0) :=
  Table.count_modify _ h

theorem occupied_set_none {apps : Table Application} {u : Id × ApplicationData}
    (h : apps.find? u.1 = none) (offerId : Id) :
    occupied (setApplication apps u) offerId = occupied apps offerId :=
  Table.count_modify_of_none _ h

theorem occupied_set_le (apps : Table Application) (u : Id × ApplicationData) (offerId : Id) :
    occupied (setApplication apps u) offerId ≤ occupied apps offerId + 1 := by
  cases h : apps.find? u.1 with
  | none => exact (occupied_set_none h offerId).le.trans (Nat.le_succ _)
  | some app =>
      have := occupied_set h offerId
      split at this <;> split at this <;> omega

/-! ## The condition -/

/-- Is the call an `updateStatus`? -/
def Op.decides : Op → Bool
  | .updateStatus .. => true
  | _ => false

theorem eq_of_decides {o : Op} (h : o.decides = true) :
    ∃ a dto userId, o = .updateStatus a dto userId := by
  cases o <;> simp_all [Op.decides]

theorem brackets_of_decides {o : Op} (h : o.decides = true) : o.brackets = true := by
  obtain ⟨a, dto, userId, rfl⟩ := eq_of_decides h
  rfl

/-- The rows application `a` was read as. -/
def rowsRead (es : List Ev) (a : Id) : List ApplicationWithOffer :=
  es.filterMap fun
    | ⟨.applicationFindUnique id, some row⟩ => if id = a then some row else none
    | _ => none

theorem mem_rowsRead {es : List Ev} {a : Id} {row : ApplicationWithOffer}
    (h : (⟨.applicationFindUnique a, some row⟩ : Ev) ∈ es) : row ∈ rowsRead es a :=
  List.mem_filterMap.2 ⟨_, h, if_pos rfl⟩

/-- Does the transaction of a call put an application into a seat? -/
def Admits (l : Log) : Prop := ∃ u ∈ updates l.pending, u.2.status.occupies = true

/-- If the call read its application in a seat of the offer, and puts an application into a seat,
    then the application it read is still in its seat, or a seat is free. -/
def SeatHeld (offerId : Id) (capacity : Int) (s : World) (l : Log) : Prop :=
  match l.op with
  | .updateStatus a _ _ =>
      ∀ row ∈ rowsRead l.done a, row.offerId = offerId → row.status.occupies = true → Admits l →
        (s.applications.find? a).any (·.status.occupies) = true ∨
          (occupied s.applications offerId : Int) < capacity
  | _ => True

instance (offerId : Id) (capacity : Int) (s : World) (l : Log) :
    Decidable (SeatHeld offerId capacity s l) := by
  unfold SeatHeld Admits
  cases l.op <;> infer_instance

/-- Only `updateStatus` is called, and every commit finds the seat it relies on. -/
def seatsHeld (offerId : Id) (capacity : Int) (p : Platform) : Step model Op → Prop
  | .spawn o => o.decides = true
  | .exec i _ =>
      ∀ t ∈ p.threads[i]?, t.commits = true → SeatHeld offerId capacity p.db t.trace
  | _ => True

instance (offerId : Id) (capacity : Int) (p : Platform) (a : Step model Op) :
    Decidable (seatsHeld offerId capacity p a) := by
  cases a <;> unfold seatsHeld <;> infer_instance

/-! ## The invariant -/

/-- What a call remembers of the applications it read is still so, status apart. -/
structure Remembers (s : World) (l : Log) : Prop where
  decides : l.op.decides = true
  read : ∀ a row, (⟨.applicationFindUnique a, some row⟩ : Ev) ∈ l.events →
    s.offers.find? row.offerId = some row.offer ∧
      ∃ app, s.applications.find? a = some app ∧ app.offerId = row.offerId
  waitlisted : ∀ offerId w student,
    (⟨.applicationFindFirstWaitlisted offerId, some (w, student)⟩ : Ev) ∈ l.events →
      ∃ app, s.applications.find? w.id = some app ∧ app.offerId = offerId

theorem Remembers.replay {s : World} {l : Log} (h : Remembers s l) (es : List Ev) :
    Remembers (model.replay es s) l := by
  refine ⟨h.decides, fun a row hrow => ?_, fun offerId w student hw => ?_⟩
  · obtain ⟨hoffer, app, happ, hid⟩ := h.read a row hrow
    obtain ⟨app', happ', hsame⟩ := replay_file happ
    exact ⟨by rwa [replay_offers], app', happ', hsame.offerId.trans hid⟩
  · obtain ⟨app, happ, hid⟩ := h.waitlisted offerId w student hw
    obtain ⟨app', happ', hsame⟩ := replay_file happ
    exact ⟨app', happ', hsame.offerId.trans hid⟩

theorem Remembers.events {s : World} {l l' : Log} (h : Remembers s l) (hop : l'.op = l.op)
    (hsub : ∀ e ∈ l'.events, e ∈ l.events) : Remembers s l' :=
  ⟨hop ▸ h.decides, fun a row hrow => h.read a row (hsub _ hrow),
    fun o w st hw => h.waitlisted o w st (hsub _ hw)⟩

/-- A statement answered in the view of the call is remembered as well. -/
theorem Remembers.push {s : World} {l : Log} (h : Remembers s l) {q : Stmt} {a : Ans q} {c : Choice}
    (hexec : exec q c (l.view model s) = some a) : Remembers s (l.push ⟨q, a⟩) := by
  refine ⟨by simpa using h.decides, fun id row hrow => ?_, fun offerId w student hw => ?_⟩
  · rw [Trace.events_push, List.mem_append, List.mem_singleton] at hrow
    rcases hrow with hrow | heq
    · exact h.read id row hrow
    · obtain ⟨rfl, heq⟩ := Event.mk.inj heq
      obtain rfl := eq_of_heq heq
      obtain ⟨hfind, hoffer, -⟩ := applicationFindUnique_of_exec c hexec
      obtain ⟨app, happ, hsame⟩ := file_of_replay hfind
      exact ⟨by simpa [Trace.view] using hoffer, app, happ, hsame.offerId.symm⟩
  · rw [Trace.events_push, List.mem_append, List.mem_singleton] at hw
    rcases hw with hw | heq
    · exact h.waitlisted offerId w student hw
    · obtain ⟨rfl, heq⟩ := Event.mk.inj heq
      obtain rfl := eq_of_heq heq
      obtain ⟨hmem, hoffer, -⟩ := firstWaitlisted_of_exec hexec
      obtain ⟨app, happ, hsame⟩ := file_of_replay (Table.find?_key hmem)
      exact ⟨app, happ, hsame.offerId.symm.trans hoffer⟩

/-! ## One commit -/

/-- A valid decision for an applicant without a seat that gives a seat is an acceptance. -/
theorem accepted_of_valid {s s' : ApplicationStatus} (h : ValidTransition s s')
    (hs : s.occupies = false) (hs' : s'.occupies = true) : s' = .ACCEPTED ∧ s ≠ .ACCEPTED := by
  revert h hs hs'
  cases s <;> cases s' <;> decide

theorem not_occupies_of_freesASeat {s s' : ApplicationStatus} (h : freesASeat s s' = true) :
    s.occupies = true ∧ s'.occupies = false := by
  revert h
  cases s <;> cases s' <;> decide

/-- The count is steady: it does not depend on the clock. -/
theorem applicationCount_steady (offerId : Id) (statuses : List ApplicationStatus) :
    Steady model (.applicationCount offerId statuses) := by
  intro e c es s
  simp only [exec, replay_applications, tick]

/-- What the count of an acceptance found is the number of seats occupied when it commits. -/
theorem seat_free_of_counted {s : World} {l : Log} {row : ApplicationWithOffer}
    {next : ApplicationStatus} (hseen : Seen model s l) (hcount : SeatCounted row next l.pending)
    (hnext : next = .ACCEPTED) (hrow : row.status ≠ .ACCEPTED) {capacity : Int}
    (hlimit : row.offer.limit = some capacity) :
    (occupied s.applications row.offerId : Int) < capacity := by
  obtain ⟨n, suf, hn, hpending⟩ := hcount hnext hrow capacity hlimit
  obtain ⟨c, hc⟩ := hseen [] _ suf hpending (applicationCount_steady _ _)
  have heq : n = occupied s.applications row.offerId := applicationCount_eq c hc
  rwa [← heq]

/-- Writing the status of one application of an offer takes at most the seat it had, or a free
    one. -/
theorem occupied_decide {apps : Table Application} {u : Id × ApplicationData} {offerId : Id}
    {app : Application} (h : apps.find? u.1 = some app) {capacity : Int}
    (hle : (occupied apps offerId : Int) ≤ capacity)
    (hfree : app.offerId = offerId → u.2.status.occupies = true →
      app.status.occupies = true ∨ (occupied apps offerId : Int) < capacity) :
    (occupied (setApplication apps u) offerId : Int) ≤ capacity := by
  have hset := occupied_set h offerId
  by_cases hoff : app.offerId = offerId ∧ u.2.status.occupies = true
  · rcases hfree hoff.1 hoff.2 with hseat | hlt
    · have hseated : seated offerId app = true := by simp [seated, hoff.1, hseat]
      rw [if_pos hseated] at hset
      split at hset <;> omega
    · split at hset <;> split at hset <;> omega
  · have hnot : seated offerId (u.2.set app) = false := by
      simpa [seated, ApplicationData.set] using hoff
    rw [hnot] at hset
    simp only [Bool.false_eq_true, if_false] at hset
    omega

/-- A seat that is freed may be given to another application. -/
theorem occupied_promote {apps : Table Application} {u v : Id × ApplicationData} {offerId : Id}
    {app : Application} (h : apps.find? u.1 = some app) (hu : u.2.status.occupies = false)
    {capacity : Int} (hle : (occupied apps offerId : Int) ≤ capacity)
    (hfree : (app.offerId = offerId ∧ app.status.occupies = true) ∨
      (occupied apps offerId : Int) < capacity) :
    (occupied (setApplication (setApplication apps u) v) offerId : Int) ≤ capacity := by
  have hset := occupied_set h offerId
  have hnot : seated offerId (u.2.set app) = false := by
    simp [seated, ApplicationData.set, hu]
  have hnext := occupied_set_le (setApplication apps u) v offerId
  rw [hnot] at hset
  simp only [Bool.false_eq_true, if_false] at hset
  rcases hfree with ⟨hoff, hseat⟩ | hlt
  · rw [if_pos (by simp [seated, hoff, hseat])] at hset
    omega
  · split at hset <;> omega

/-- An update of an application of another offer moves no seat of this one. -/
theorem occupied_other {apps : Table Application} {u : Id × ApplicationData} {offerId : Id}
    {app : Application} (h : apps.find? u.1 = some app) (hne : app.offerId ≠ offerId) :
    occupied (setApplication apps u) offerId = occupied apps offerId := by
  have hset := occupied_set h offerId
  have h₁ : seated offerId app = false := by simp [seated, hne]
  have h₂ : seated offerId (u.2.set app) = false := by simp [seated, ApplicationData.set, hne]
  simpa [h₁, h₂] using hset

/-- A decision that commits keeps the offer within its capacity, if the application it read in a
    seat still has it or a seat is free. -/
theorem capacity_of_commit {s : World} {l : Log} {a : Id} {dto : UpdateApplicationStatusDto}
    {userId offerId : Id} {offer : Offer} {capacity : Int}
    (hop : l.op = .updateStatus a dto userId) (hcommit : DecisionCommit l a dto)
    (hseen : l.Exclusive → Seen model s l) (hmem : Remembers s l)
    (hoffer : s.offers.find? offerId = some offer) (hcap : offer.capacity = some capacity)
    (hpos : 1 ≤ capacity) (hle : (occupied s.applications offerId : Int) ≤ capacity)
    (hheld : SeatHeld offerId capacity s l) :
    (occupied (l.view model s).applications offerId : Int) ≤ capacity := by
  obtain ⟨row, hread, hvalid, htouches, hcounted, data, hdata, hupdates⟩ := hcommit
  obtain ⟨hrowOffer, app, happ, hsame⟩ := hmem.read a row (Trace.mem_events.2 (.inl hread))
  have hview : (l.view model s).applications = (updates l.pending).foldl setApplication
      s.applications := replay_applications _ _
  rw [hview]
  by_cases hother : row.offerId = offerId
  swap
  · -- The decision is about another offer, and so is the promotion that follows it.
    have hne : app.offerId ≠ offerId := fun h => hother (hsame ▸ h)
    rcases hupdates with hone | ⟨-, w, student, data', hw, -, htwo⟩
    · rw [hone, List.foldl_cons, List.foldl_nil, occupied_other happ hne]
      exact hle
    · obtain ⟨app', happ', hsame'⟩ := hmem.waitlisted _ _ _ (Trace.mem_events.2 (.inr hw))
      have hfind := find?_foldl_setApplication [(a, data)] s.applications w.id
      rw [happ', Option.map_some, List.foldl_cons, List.foldl_nil] at hfind
      have hne' : (applied [(a, data)] w.id app').offerId ≠ offerId :=
        fun h => hother (hsame' ▸ (sameFile_applied ..).offerId ▸ h)
      have hsecond : occupied (setApplication (setApplication s.applications (a, data))
          (w.id, data')) offerId = _ := occupied_other hfind hne'
      rw [htwo, List.foldl_cons, List.foldl_cons, List.foldl_nil, hsecond, occupied_other happ hne]
      exact hle
  have hlimit : row.offer.limit = some capacity := by
    obtain rfl : row.offer = offer := Option.some.inj (hrowOffer.symm.trans (hother ▸ hoffer))
    simp only [Offer.limit, hcap, Option.filter_some]
    rw [if_pos (by simp; omega)]
  have hheld : row.status.occupies = true → Admits l →
      app.status.occupies = true ∨ (occupied s.applications offerId : Int) < capacity := by
    simp only [SeatHeld, hop] at hheld
    simpa [happ] using hheld row (mem_rowsRead hread) hother
  rcases hupdates with hone | ⟨hfrees, w, student, data', hw, hdata', htwo⟩
  · rw [hone, List.foldl_cons, List.foldl_nil]
    refine occupied_decide happ hle fun _ hseat => ?_
    rw [hdata] at hseat
    cases hrow : row.status.occupies with
    | true =>
        exact hheld hrow ⟨(a, data), by simp [hone], hdata ▸ hseat⟩
    | false =>
        obtain ⟨hnext, hprev⟩ := accepted_of_valid hvalid hrow hseat
        refine .inr (hother ▸ seat_free_of_counted (hseen (htouches ?_)) hcounted hnext hprev hlimit)
        simp [touchesCapacity, hlimit, hnext]
  · rw [htwo, List.foldl_cons, List.foldl_cons, List.foldl_nil]
    obtain ⟨hrow, hnext⟩ := not_occupies_of_freesASeat hfrees
    refine occupied_promote happ (hdata ▸ hnext) hle ?_
    rcases hheld hrow ⟨(w.id, data'), by simp [htwo], by simp [hdata', ApplicationStatus.occupies]⟩
      with hocc | hlt
    · exact .inl ⟨hsame.trans hother, hocc⟩
    · exact .inr hlt

/-! ## Every run -/

/-- Outside its transaction `updateStatus` changes no application. -/
theorem updates_of_call {l : Log} {q : Stmt} {a : Ans q} (hop : l.op.brackets = true)
    (hguard : guards.stmt l q) (htx : l.tx = none) : updates [⟨q, a⟩] = [] := by
  cases q with
  | applicationUpdate id data => exact absurd htx (hguard.2.1 hop)
  | _ => rfl

theorem capacity_rules {offerId : Id} {offer : Offer} {capacity : Int}
    (hcap : offer.capacity = some capacity) (hpos : 1 ≤ capacity) :
    Rules (ε := Err) (α := Reply) guards (seatsHeld offerId capacity)
      (fun s => s.offers.find? offerId = some offer ∧
        (occupied s.applications offerId : Int) ≤ capacity)
      Remembers (fun _ _ => True) where
  symm _ _ _ := trivial
  start _ o hR _ := ⟨hR, by simp [Trace.events], by simp [Trace.events]⟩
  start_pair _ _ _ _ _ := trivial
  env _ _ _ h := ⟨h, fun _ hl => ⟨hl.decides, hl.read, hl.waitlisted⟩⟩
  drop _ _ h := h.events rfl fun _ => Trace.mem_events_of_drop
  drop_pair _ _ _ := trivial
  openTx _ l iso htx h := h.events rfl fun e he => by rwa [Trace.events_openTx htx] at he
  openTx_pair _ _ _ _ _ := trivial
  call p i c t q a h hcall htx := by
    have hmem := h.thread i t hcall.here
    have hop : t.trace.op.brackets = true := brackets_of_decides hmem.decides
    have hsame : (model.replay [⟨q, a⟩] p.db).applications = p.db.applications := by
      rw [replay_applications, updates_of_call hop hcall.guard htx]
      rfl
    have hoffers := replay_offers [⟨q, a⟩] p.db
    rw [Model.replay_singleton] at hsame hoffers
    refine ⟨⟨hoffers ▸ h.db.1, hsame ▸ h.db.2⟩, ?_, fun u hu => ⟨?_, trivial⟩⟩
    · simpa [Model.replay_singleton] using (hmem.push hcall.exec).replay [⟨q, a⟩]
    · simpa [Model.replay_singleton] using (h.other hu).replay [⟨q, a⟩]
  callTx p i c t q a x h hcall htx :=
    ⟨(h.thread i t hcall.here).push hcall.exec, fun _ _ => trivial⟩
  commit p i c t x h hcommit := by
    have hmem := h.thread i t hcommit.here
    obtain ⟨a, dto, userId, hop⟩ := eq_of_decides hmem.decides
    have hguard : DecisionCommit t.trace a dto := by
      have := hcommit.guard
      simpa [guards, commitGuard, hop] using this
    refine ⟨⟨by simpa [Trace.view] using h.db.1, ?_⟩, ?_, fun u hu => ⟨(h.other hu).replay _, trivial⟩⟩
    · exact capacity_of_commit hop hguard hcommit.seen hmem h.db.1 hcap hpos h.db.2
        (hcommit.allowed t hcommit.here hcommit.next)
    · exact (hmem.replay _).events rfl fun e he => by rwa [Trace.events_commit] at he

/-- **Offer capacity.** In every run of `updateStatus` calls whose steps meet `seatsHeld`, an offer
    that is within its capacity at the start stays within it. -/
theorem capacity_respected {s₀ : World} {offerId : Id} {offer : Offer} {capacity : Int}
    (hoffer : s₀.offers.find? offerId = some offer) (hcap : offer.capacity = some capacity)
    (hpos : 1 ≤ capacity) (h₀ : (occupied s₀.applications offerId : Int) ≤ capacity) {p : Platform}
    (hrun : Run prog (seatsHeld offerId capacity) (idle s₀) p) :
    (occupied p.db.applications offerId : Int) ≤ capacity :=
  ((capacity_rules hcap hpos).holds (fun _ o _ => prog_conforms o) ⟨hoffer, h₀⟩ hrun).2.db.2

/-- An offer with a single seat, which application 1 has; 2 and 3 wait for it. -/
def oneSeat : World :=
  { World.empty with
    users := .ofList [⟨9, some .ADMIN_GET, none⟩]
    students := .ofList [⟨11, 21⟩, ⟨12, 22⟩, ⟨13, 23⟩]
    offers := .ofList [⟨5, 7, none, 100, some 1, none, true, none⟩]
    applications := .ofList
      [⟨1, 11, 5, .ACCEPTED, none, none, none, none, none, none, 0⟩,
       ⟨2, 12, 5, .WAITLISTED, none, none, none, none, none, none, 1⟩,
       ⟨3, 13, 5, .WAITLISTED, none, none, none, none, none, none, 2⟩] }

/-- The cancellation of application 1, from start to end. -/
def cancelOnce : List (Step model Op) :=
  .spawn (.updateStatus 1 { status := .CANCELLED } 9) :: commands 0 14

/-- The seat that is freed goes to the first applicant who waits, and the offer stays full. -/
theorem capacity_respected_cancelOnce :
    ∃ p : Platform, Run prog (seatsHeld 5 1) (idle oneSeat) p ∧
      (p.db.applications.find? 2).any (·.status = .ACCEPTED) = true ∧
      (occupied p.db.applications 5 : Int) ≤ 1 := by
  have hplay : ((idle oneSeat : Platform).play prog (seatsHeld 5 1) cancelOnce).any
      (fun p => (p.db.applications.find? 2).any (·.status = .ACCEPTED)) = true := by
    decide +kernel
  obtain ⟨p, hrun, hpromoted⟩ := exists_run_of_play hplay
  exact ⟨p, hrun, hpromoted, capacity_respected rfl rfl (by decide) (by decide) hrun⟩

/-- Two calls that cancel application 1 and both read it as ACCEPTED. The second commits after the
    first, when the seat has gone to application 2 already, and promotes application 3. -/
def cancelTwice : List (Step model Op) :=
  [.spawn (.updateStatus 1 { status := .CANCELLED } 9),
   .spawn (.updateStatus 1 { status := .CANCELLED } 9)] ++ commands 0 2 ++ commands 1 14 ++
    commands 0 12

/-- Without the condition the offer is overbooked. -/
theorem not_capacity_respected :
    ¬ ∀ (s₀ : World) (offerId : Id) (offer : Offer) (capacity : Int),
      s₀.offers.find? offerId = some offer → offer.capacity = some capacity → 1 ≤ capacity →
      (occupied s₀.applications offerId : Int) ≤ capacity →
      ∀ p : Platform, Run prog (onlyCalls (·.decides = true)) (idle s₀) p →
        (occupied p.db.applications offerId : Int) ≤ capacity := by
  intro h
  have hplay : ((idle oneSeat : Platform).play prog (onlyCalls (·.decides = true)) cancelTwice).any
      (fun p => occupied p.db.applications 5 = 2) = true := by
    decide +kernel
  obtain ⟨p, hrun, htwo⟩ := exists_run_of_play hplay
  have hle := h oneSeat 5 _ 1 rfl rfl (by decide) (by decide) p hrun
  rw [of_decide_eq_true htwo] at hle
  exact absurd hle (by decide)

end GetPlatform.Admission
