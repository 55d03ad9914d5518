import GetPlatform.Planning.SchedulingService
import GetPlatform.Store.Firm

set_option autoImplicit false

/-! # The current year

A call that makes a year the current one takes the flag away from the others, and sets its own in a
second statement. Two such calls that meet between their statements both set their flags, and a call
whose second statement fails has already taken the flag away. Where neither happens, at most one year
is current, and a call that fails has changed no flag. -/

namespace GetPlatform.Planning

open Pool Prog

abbrev Ev := Event interface

abbrev Log := Trace interface Op

abbrev Caller := Thread interface Op Err Reply

abbrev Platform := Pool model Op Err Reply

/-- At most one year is current. -/
def OneCurrent (s : World) : Prop :=
  ∀ y ∈ s.academicYears, ∀ z ∈ s.academicYears, y.isCurrent = true → z.isCurrent = true → y = z

/-- The flags of all years. -/
def flags (s : World) (id : Id) : Option Bool := (s.academicYears.find? id).map (·.isCurrent)

/-! ## What the calls do to the flags -/

/-- The year that a statement makes current: one that is there already, or a new one. -/
def makesCurrent : Stmt → Option (Option Id)
  | .academicYearCreate data => if data.isCurrent = some true then some none else none
  | .academicYearUpdate id data => if data.isCurrent = some true then some (some id) else none
  | _ => none

/-- The year that was spared when an event took the flag away from the others. -/
def spared : Ev → Option (Option Id)
  | ⟨.academicYearUpdateManyCurrent excludedId, _⟩ => some excludedId
  | _ => none

/-- The event may have changed a flag. -/
def touches : Ev → Bool
  | ⟨.academicYearUpdateManyCurrent _, ids⟩ => !List.isEmpty ids
  | ⟨.academicYearCreate _, _⟩ => true
  | ⟨.academicYearUpdate .., _⟩ => true
  | ⟨.academicYearDelete _, _⟩ => true
  | _ => false

/-- The call has taken the flags away and has not set its own yet. -/
def Midway (t : Caller) : Prop :=
  t.running = true ∧ (∃ e ∈ t.trace.done, (spared e).isSome = true) ∧
    ∀ e ∈ t.trace.done, makesCurrent e.stmt = none

instance (t : Caller) : Decidable (Midway t) :=
  inferInstanceAs (Decidable (_ ∧ (∃ e ∈ t.trace.done, _) ∧ ∀ e ∈ t.trace.done, _))

/-- A call of `create` or `update`. -/
def Op.writesYear : Op → Bool
  | .createYear _ => true
  | .updateYear .. => true
  | _ => false

/-- The calls are of `create` and `update`; when one of them sets a flag, no other one is midway; and
    no statement fails of one that has changed a flag. -/
def InTurn (p : Platform) : Step model Op → Prop
  | .spawn o => o.writesYear = true
  | .exec i _ => ∀ t ∈ p.threads[i]?, ∀ q ∈ t.next?, (makesCurrent q).isSome = true →
      ∀ j < p.threads.length, j ≠ i → ∀ u ∈ p.threads[j]?, ¬ Midway u
  | .fault i _ => ∀ t ∈ p.threads[i]?, ∀ e ∈ t.trace.done, touches e = false
  | _ => True

instance (p : Platform) (a : Step model Op) : Decidable (InTurn p a) := by
  cases a <;> unfold InTurn <;> infer_instance

/-! ## What has been done when a flag is set -/

/-- A call that sets a flag has taken it away from the other years, and sets one only. -/
def yearGuards : Guards interface Op where
  stmt l q := ∀ target, makesCurrent q = some target →
    (∃ e ∈ l.done, spared e = some target) ∧ ∀ e ∈ l.done, makesCurrent e.stmt = none
  commit _ := False

@[simp] theorem conforms_send {q : Stmt} {Q : Log → Ans q → Prop} {E : Log → Err → Prop} {l : Log}
    {G : Guards interface Op} :
    @Prog.Conforms interface model Err (no_index (Ans q)) Op G (send q) Q E l ↔
      G.stmt l q ∧ E l .database ∧ ∀ a, model.Possible q a → Q (l.push ⟨q, a⟩) a :=
  ⟨fun h => ⟨h.1, h.2.1 .database, h.2.2⟩, fun h => ⟨h.1, fun _ => h.2.1, h.2.2⟩⟩

/-- The statement neither sets a flag nor changes one. -/
def Harmless (q : Stmt) : Prop := makesCurrent q = none ∧ ∀ a, touches ⟨q, a⟩ ≠ true

theorem only_send {P : Stmt → Prop} {q : Stmt} :
    @Prog.Only interface Err (no_index (Ans q)) P (send q) ↔ P q :=
  @only_query interface Err P (fun _ => .database) q

theorem findOne_only (id : Id) : (findOne id).Only Harmless := by
  refine Only.handle (only_send.2 ⟨rfl, fun _ => by simp [touches]⟩) (fun found => ?_) fun _ => trivial
  cases found <;> trivial

theorem assertDateOrder_only (startDate endDate : Int) :
    (assertDateOrder startDate endDate).Only Harmless := by
  simp [assertDateOrder]

theorem assertLabelAvailable_only (label : String) : (assertLabelAvailable label).Only Harmless := by
  refine Only.handle (only_send.2 ⟨rfl, fun _ => by simp [touches]⟩) (fun found => ?_) fun _ => trivial
  simp

theorem ifNewLabel_only (label : Option String) (year : AcademicYear) :
    (ifGiven label fun label => do
      if label ≠ "" ∧ trim label ≠ year.label then assertLabelAvailable label).Only Harmless := by
  cases label with
  | none => trivial
  | some label =>
      simp only [ifGiven, only_ite]
      exact ⟨fun _ => assertLabelAvailable_only label, fun _ => trivial⟩

/-- After statements that set no flag, the flags are taken away before one is set. -/
theorem clearOthers_conforms {isCurrent : Option Bool} {excludedId : Option Id} {q : Stmt}
    {f : Ans q → Reply} {o : Op} {d : List Ev} (hd : ∀ e ∈ d, makesCurrent e.stmt = none)
    (hq : ∀ target, makesCurrent q = some target → target = excludedId ∧ isCurrent = some true) :
    ((clearOthers isCurrent excludedId).handle (fun _ => (send q).handle (fun a => .ret (f a)) .fail)
      .fail).Conforms model yearGuards (fun _ _ => True) (fun _ _ => True) ⟨o, d, none⟩ := by
  simp only [clearOthers, bind_eq, pure_eq, conforms_handle, conforms_ite, conforms_send,
    conforms_ret, conforms_fail, Trace.push_outside]
  refine ⟨fun _ => ⟨fun _ h => (by cases h), trivial, fun ids _ => ⟨fun target htarget => ?_, trivial,
    fun _ _ => trivial⟩⟩, fun hnot => ⟨fun target htarget => ?_, trivial, fun _ _ => trivial⟩⟩
  · obtain ⟨rfl, -⟩ := hq target htarget
    refine ⟨⟨_, List.mem_append_right _ (List.mem_singleton_self _), rfl⟩, fun e he => ?_⟩
    rcases List.mem_append.1 he with he | he
    · exact hd e he
    · obtain rfl := List.mem_singleton.1 he
      rfl
  · exact absurd (hq target htarget).2 hnot

/-- Checks that set no flag may come first. -/
theorem Harmless.conforms {α β : Type} {p : Call α} (hp : p.Only Harmless) {f : α → Call β}
    {o : Op} {d : List Ev} (hd : ∀ e ∈ d, makesCurrent e.stmt = none)
    (hf : ∀ a d', (∀ e ∈ d', makesCurrent e.stmt = none) →
      (f a).Conforms model yearGuards (fun _ _ => True) (fun _ _ => True) ⟨o, d', none⟩) :
    (p.handle f .fail).Conforms model yearGuards (fun _ _ => True) (fun _ _ => True)
      ⟨o, d, none⟩ := by
  rw [conforms_handle]
  refine hp.conforms_outside (fun d' _ q hq target htarget => ?_) (fun d' hd' a => hf a _ ?_)
    fun _ _ _ => trivial
  · cases hq.1.symm.trans htarget
  · intro e he
    rcases List.mem_append.1 he with he | he
    · exact hd e he
    · exact (hd' e he).1

theorem create_conforms (dto : CreateAcademicYearDto) :
    (program (.createYear dto)).Conforms model yearGuards (fun _ _ => True) (fun _ _ => True)
      (.start (.createYear dto)) := by
  simp only [program, create, map_eq, bind_eq, handle_handle, handle_fail]
  refine Harmless.conforms (assertDateOrder_only ..) (by simp) fun _ d hd => ?_
  refine Harmless.conforms (assertLabelAvailable_only _) hd fun _ d hd => ?_
  refine clearOthers_conforms hd fun target htarget => ?_
  simp only [makesCurrent] at htarget
  split at htarget
  · next hdata => exact ⟨(Option.some.inj htarget).symm, hdata⟩
  · cases htarget

theorem update_conforms (id : Id) (dto : UpdateAcademicYearDto) :
    (program (.updateYear id dto)).Conforms model yearGuards (fun _ _ => True) (fun _ _ => True)
      (.start (.updateYear id dto)) := by
  simp only [program, update, map_eq, bind_eq, handle_handle, handle_fail]
  refine Harmless.conforms (findOne_only id) (by simp) fun year d hd => ?_
  refine Harmless.conforms (assertDateOrder_only ..) hd fun _ d hd => ?_
  refine Harmless.conforms (ifNewLabel_only dto.label year) hd fun _ d hd => ?_
  refine clearOthers_conforms hd fun target htarget => ?_
  simp only [makesCurrent] at htarget
  split at htarget
  · next hdata => exact ⟨(Option.some.inj htarget).symm, hdata⟩
  · cases htarget

theorem year_conforms {o : Op} (ho : o.writesYear = true) :
    (program o).Conforms model yearGuards (fun _ _ => True) (fun _ _ => True) (.start o) := by
  cases o with
  | createYear dto => exact create_conforms dto
  | updateYear id dto => exact update_conforms id dto
  | _ => cases ho

/-! ## A call that has changed a flag fails only when a statement does -/

theorem Harmless.firmAfter {α β : Type} {p : Call α} (hp : p.Only Harmless) {f : α → Call β}
    (hf : ∀ a, (f a).FirmAfter model fun e => touches e = true) :
    (p.handle f .fail).FirmAfter model fun e => touches e = true :=
  Only.firmAfter (hp.mono fun _ h => h.2) hf fun _ => trivial

/-- Once the flags are taken away, what is left is one statement. -/
theorem clearOthers_firmAfter {isCurrent : Option Bool} {excludedId : Option Id} {q : Stmt}
    {f : Ans q → Reply} :
    ((clearOthers isCurrent excludedId).handle (fun _ => (send q).handle (fun a => .ret (f a)) .fail)
      .fail).FirmAfter model fun e => touches e = true := by
  unfold clearOthers
  split
  · exact ⟨fun _ => trivial, fun ids _ => ⟨⟨fun _ => trivial, fun _ _ => ⟨trivial, fun _ => trivial⟩⟩,
      fun _ _ _ => trivial⟩⟩
  · exact ⟨fun _ => trivial, fun _ _ => ⟨trivial, fun _ => trivial⟩⟩

theorem year_firmAfter {o : Op} (ho : o.writesYear = true) :
    (program o).FirmAfter model fun e => touches e = true := by
  cases o with
  | createYear dto =>
      simp only [program, create, map_eq, bind_eq, handle_handle, handle_fail]
      refine Harmless.firmAfter (assertDateOrder_only ..) fun _ => ?_
      exact Harmless.firmAfter (assertLabelAvailable_only _) fun _ => clearOthers_firmAfter
  | updateYear id dto =>
      simp only [program, update, map_eq, bind_eq, handle_handle, handle_fail]
      refine Harmless.firmAfter (findOne_only id) fun year => ?_
      refine Harmless.firmAfter (assertDateOrder_only ..) fun _ => ?_
      exact Harmless.firmAfter (ifNewLabel_only dto.label year) fun _ => clearOthers_firmAfter
  | _ => cases ho

/-! ## The flags after a statement -/

/-- The year is current. -/
def Current (s : World) (id : Id) : Prop := flags s id = some true

theorem current_iff {s : World} {id : Id} :
    Current s id ↔ ∃ y ∈ s.academicYears, y.id = id ∧ y.isCurrent = true := by
  simp only [Current, flags, Option.map_eq_some_iff]
  constructor
  · rintro ⟨y, hfind, hcurrent⟩
    exact ⟨y, Table.mem_of_find? hfind, Table.key_of_find? hfind, hcurrent⟩
  · rintro ⟨y, hy, rfl, hcurrent⟩
    exact ⟨y, Table.find?_key hy, hcurrent⟩

theorem oneCurrent_iff {s : World} :
    OneCurrent s ↔ ∀ id id', Current s id → Current s id' → id = id' := by
  simp only [current_iff]
  constructor
  · rintro h _ _ ⟨y, hy, rfl, hcy⟩ ⟨z, hz, rfl, hcz⟩
    exact congrArg AcademicYear.id (h y hy z hz hcy hcz)
  · intro h y hy z hz hcy hcz
    exact Table.eq_of_key_eq hy hz (h _ _ ⟨y, hy, rfl, hcy⟩ ⟨z, hz, rfl, hcz⟩)

/-- The year whose flag an event has set. -/
def madeCurrent : Ev → Option Id
  | ⟨.academicYearCreate data, row⟩ => if data.isCurrent = some true then some (AcademicYear.id row) else none
  | ⟨.academicYearUpdate id data, _⟩ => if data.isCurrent = some true then some id else none
  | _ => none

/-- A year is current after a row was written: the written row, or another one. -/
theorem current_put {s : World} {row : AcademicYear} {id : Id}
    (h : Current (World.apply (.year row) s) id) :
    id = row.id ∧ row.isCurrent = true ∨ Current s id := by
  have hput : (World.apply (.year row) s).academicYears.find? id =
      if id = Keyed.key row then some row else s.academicYears.find? id := Table.find?_put ..
  rw [Current, flags, hput] at h
  split at h
  · next hid => exact .inl ⟨hid, Option.some.inj h⟩
  · exact .inr h

/-- The flags that were taken away are gone, and no other one has come. -/
theorem current_clear {ids : List Id} {s : World} {id : Id}
    (h : Current (model.applyAll (ids.map .notCurrent) s) id) : Current s id ∧ id ∉ ids := by
  induction ids generalizing s with
  | nil => exact ⟨h, by simp⟩
  | cons i ids ih =>
      obtain ⟨h, hnot⟩ := ih h
      have hflag : flags (World.apply (.notCurrent i) s) id =
          if id = i then (s.academicYears.find? i).map fun _ => false else flags s id := by
        simp only [flags, World.apply, Table.find?_modify]
        split
        · simp [AcademicYear.clear, Function.comp_def]
        · rfl
      rw [Current, hflag] at h
      split at h
      · simp at h
      · next hne => exact ⟨h, by simp [hne, hnot]⟩

/-- A year that is current after a statement was current before, and was not one that lost its flag; or
    the statement has set its flag. -/
theorem current_after {q : Stmt} {c : Id} {s : World} {a : Ans q} (hexec : exec q c s = some a)
    {id : Id} (h : Current (model.applyAll (writes q a) s) id) :
    (Current s id ∧ ∀ excludedId, spared ⟨q, a⟩ = some excludedId → some id = excludedId) ∨
      madeCurrent ⟨q, a⟩ = some id := by
  cases q with
  | academicYearUpdateManyCurrent excludedId =>
      obtain rfl := Option.some.inj hexec
      obtain ⟨hcurrent, hnot⟩ := current_clear h
      refine .inl ⟨hcurrent, fun excludedId' hspared => ?_⟩
      obtain rfl := Option.some.inj hspared
      -- A current year that was not spared has lost its flag.
      refine Classical.byContradiction fun hne => hnot ?_
      obtain ⟨y, hy, rfl, hflag⟩ := current_iff.1 hcurrent
      refine List.mem_map.2 ⟨y, List.mem_filter.2 ⟨hy, ?_⟩, rfl⟩
      exact decide_eq_true ⟨hflag, fun heq => hne heq.symm⟩
  | academicYearCreate data =>
      simp only [exec] at hexec
      split at hexec
      · cases hexec
      · obtain rfl := Option.some.inj hexec
        rcases current_put h with ⟨rfl, hflag⟩ | hold
        · have hdata : data.isCurrent = some true := by
            cases hdata : data.isCurrent <;> simp_all [CreateAcademicYearDto.row]
          exact .inr (by simp [madeCurrent, hdata, CreateAcademicYearDto.row])
        · exact .inl ⟨hold, by simp [spared]⟩
  | academicYearUpdate year data =>
      obtain ⟨hrow, -⟩ := Option.filter_eq_some_iff.1 hexec
      obtain ⟨y, hfind, rfl⟩ := Option.map_eq_some_iff.1 hrow
      have hid : y.id = year := Table.key_of_find? hfind
      rcases current_put h with ⟨rfl, hflag⟩ | hold
      · cases hdata : data.isCurrent with
        | none =>
            simp only [UpdateAcademicYearDto.set, hdata, Option.getD_none] at hflag
            refine .inl ⟨current_iff.2 ⟨y, Table.mem_of_find? hfind, rfl, hflag⟩, by simp [spared]⟩
        | some flag =>
            simp only [UpdateAcademicYearDto.set, hdata, Option.getD_some] at hflag
            exact .inr (by simp [madeCurrent, hdata, hflag, UpdateAcademicYearDto.set, hid])
      · exact .inl ⟨hold, by simp [spared]⟩
  | academicYearDelete year =>
      refine .inl ⟨?_, by simp [spared]⟩
      obtain ⟨y, hy, hid, hflag⟩ := current_iff.1 h
      exact current_iff.2 ⟨y, (Table.mem_filter.1 hy).1, hid, hflag⟩
  | _ => exact .inl ⟨h, by simp [spared]⟩

/-- Only the events that may change a flag do. -/
theorem touches_of_flags {q : Stmt} {a : Ans q} {s : World}
    (h : flags (model.applyAll (writes q a) s) ≠ flags s) : touches ⟨q, a⟩ = true := by
  cases q with
  | academicYearUpdateManyCurrent excludedId =>
      cases a with
      | nil => exact absurd rfl h
      | cons => rfl
  | academicYearCreate data => rfl
  | academicYearUpdate id data => rfl
  | academicYearDelete id => rfl
  | _ => exact absurd rfl h

/-! ## One current year -/

/-- At most one year is current, and none but the spared one once a call has taken the flags away. -/
structure Kept (p : Platform) : Prop where
  one : OneCurrent p.db
  midway : ∀ (i : Nat) (t : Caller), p.threads[i]? = some t → t.running = true →
    (∀ e ∈ t.trace.done, makesCurrent e.stmt = none) → ∀ e ∈ t.trace.done, ∀ excludedId,
      spared e = some excludedId → ∀ id, Current p.db id → some id = excludedId

theorem madeCurrent_target {q : Stmt} {a : Ans q} {id : Id} (h : madeCurrent ⟨q, a⟩ = some id) :
    ∃ target, makesCurrent q = some target ∧ (target = none ∨ target = some id) := by
  cases q with
  | academicYearCreate data =>
      simp only [madeCurrent] at h
      split at h
      · next hdata => exact ⟨none, by simp [makesCurrent, hdata], .inl rfl⟩
      · cases h
  | academicYearUpdate year data =>
      simp only [madeCurrent] at h
      split at h
      · next hdata => exact ⟨some year, by simp [makesCurrent, hdata], .inr h⟩
      · cases h
  | _ => cases h

/-- An answered statement keeps it, if no other call is midway when a flag is set. -/
theorem Kept.call {p : Platform} (hk : Kept p) {i : Nat} {t : Caller} {q : Stmt}
    {k : Except Failure (Ans q) → Call Reply} {c : Id} {a : Ans q}
    (ht : p.threads[i]? = some t) (hrest : t.rest = some (.call q k)) (htx : t.trace.tx = none)
    (hguard : yearGuards.stmt t.trace q) (hturn : InTurn p (.exec i c))
    (hexec : exec q c p.db = some a) :
    Kept ⟨model.applyAll (writes q a) p.db,
      p.threads.set i ⟨t.trace.push ⟨q, a⟩, some (k (.ok a))⟩⟩ := by
  have hrunning : t.running = true := by simp [Thread.running, hrest]
  -- A flag is set: the one of the spared year, or of a new one, and nobody else is midway.
  have hset : ∀ id, madeCurrent ⟨q, a⟩ = some id →
      (∀ id', Current p.db id' → id' = id) ∧
        ∀ j u, j ≠ i → p.threads[j]? = some u → ¬ Midway u := by
    intro id hid
    obtain ⟨target, htarget, hwhich⟩ := madeCurrent_target hid
    obtain ⟨⟨e, he, hspared⟩, hunset⟩ := hguard target htarget
    refine ⟨fun id' hcurrent => ?_, fun j u hj hu => ?_⟩
    · have hsame := hk.midway i t ht hrunning hunset e he target hspared id' hcurrent
      rcases hwhich with rfl | rfl
      · cases hsame
      · exact Option.some.inj hsame
    · exact hturn t ht q (next_of_call hrest) (by simp [htarget]) j
        (List.getElem?_eq_some_iff.1 hu).1 hj u hu
  refine ⟨oneCurrent_iff.2 fun id id' h h' => ?_, fun j u hu hrun hunset e he excludedId hspared id h => ?_⟩
  · rcases current_after hexec h with ⟨hold, -⟩ | hmade <;>
      rcases current_after hexec h' with ⟨hold', -⟩ | hmade'
    · exact oneCurrent_iff.1 hk.one id id' hold hold'
    · exact (hset id' hmade').1 id hold
    · exact ((hset id hmade).1 id' hold').symm
    · exact Option.some.inj (hmade.symm.trans hmade')
  · rcases thread_set ht hu with ⟨rfl, rfl⟩ | ⟨hj, hu⟩
    · simp only [Trace.push_of_none htx] at he hunset
      rcases current_after hexec h with ⟨hold, hnew⟩ | hmade
      · rcases List.mem_append.1 he with he | he
        · exact hk.midway j t ht hrunning (fun e he => hunset e (List.mem_append_left _ he)) e he
            excludedId hspared id hold
        · obtain rfl := List.mem_singleton.1 he
          exact hnew excludedId hspared
      · -- The call has set its flag.
        obtain ⟨target, htarget, -⟩ := madeCurrent_target hmade
        have hnone : makesCurrent q = none := hunset ⟨q, a⟩ (by simp)
        cases hnone.symm.trans htarget
    · rcases current_after hexec h with ⟨hold, -⟩ | hmade
      · exact hk.midway j u hu hrun hunset e he excludedId hspared id hold
      · exact absurd ⟨hrun, ⟨e, he, by simp [hspared]⟩, hunset⟩ ((hset id hmade).2 j u hj hu)

/-- A call that did nothing to the years, and has done what it had done. -/
theorem Kept.set {p : Platform} (hk : Kept p) {i : Nat} {t u : Caller}
    (ht : p.threads[i]? = some t) (hdone : u.trace.done = t.trace.done)
    (hrunning : u.running = true → t.running = true) : Kept ⟨p.db, p.threads.set i u⟩ := by
  refine ⟨hk.one, fun j v hv hrun hunset e he => ?_⟩
  rcases thread_set ht hv with ⟨rfl, rfl⟩ | ⟨-, hv⟩
  · rw [hdone] at he hunset
    exact hk.midway j t ht (hrunning hrun) hunset e he
  · exact hk.midway j v hv hrun hunset e he

/-- The calls keep to their guards and stay without a transaction. -/
theorem conforming_of_run {s₀ : World} {p : Platform} (hrun : Run program InTurn (idle s₀) p) :
    Sound yearGuards p :=
  (Rules.holds (I := fun _ => True) (T := fun _ _ => True) (U := fun _ _ => True)
    ⟨by simp, by simp, by simp, by simp, by simp, by simp, by simp, by simp, by simp, by simp,
      by simp⟩
    (fun _ o ho => year_conforms ho) trivial hrun).1

theorem kept_of_run {s₀ : World} (h₀ : OneCurrent s₀) {p : Platform}
    (hrun : Run program InTurn (idle s₀) p) : Kept p := by
  induction hrun with
  | refl => exact ⟨h₀, by simp [idle]⟩
  | @step p p' a hrun hR hs ih =>
      have hsound := conforming_of_run hrun
      cases taken_of_step hs with
      | spawn o =>
          refine ⟨ih.one, fun j v hv hrun hunset e he => ?_⟩
          rcases thread_append hv with rfl | hv
          · simp at he
          · exact ih.midway j v hv hrun hunset e he
      | env e =>
          refine ⟨?_, fun j v hv hrun hunset e' he' excludedId hspared id h => ?_⟩
          · cases e <;> exact ih.one
          · exact ih.midway j v hv hrun hunset e' he' excludedId hspared id (by cases e <;> exact h)
      | call ht hk htx hx =>
          exact ih.call ht hk htx (hsound.guard ht (next_of_call hk)) hR hx
      | callTx ht hk htx hx =>
          refine ih.set ht ?_ fun _ => by simp [Thread.running, hk]
          obtain ⟨x, hx⟩ := Option.ne_none_iff_exists'.1 htx
          simp [Trace.push_of_some hx]
      | commit ht hk => exact (hsound.conforms _ _ ht _ hk).2.1.elim
      | turn _ ht _ hdone hrunning => exact ih.set ht hdone hrunning

/-- **At most one year is current** in every state that is reached, and **a call that fails has changed
    no flag**, if the calls take turns between taking the flags away and setting their own, and no
    statement fails of a call that has changed a flag. -/
theorem one_current_year {s₀ : World} (h₀ : OneCurrent s₀) {p : Platform} {i : Nat}
    {xs : List (World × World)} (hrun : Around program InTurn (idle s₀) i xs p) :
    OneCurrent p.db ∧ ∀ t, p.threads[i]? = some t → t.Failed → ∀ x ∈ xs, flags x.2 = flags x.1 := by
  refine ⟨(kept_of_run h₀ hrun.run).one, fun t ht hfailed => ?_⟩
  refine hrun.unchanged (P := fun e => touches e = true) (fun q a s => touches_of_flags)
    (fun _ o ho => year_firmAfter ho) (fun p j f hR t ht e he => ?_) ht hfailed
  simp [hR t ht e he]

/-- Year `1` is the current one. -/
def oneYear : World :=
  { World.empty with academicYears := .ofList [⟨1, "2025-2026", 0, 1000, true⟩] }

theorem oneCurrent_oneYear : OneCurrent oneYear := by
  intro y hy z hz _ _
  rw [List.mem_singleton.1 hy, List.mem_singleton.1 hz]

/-- A request for a new current year. -/
def newYear (label : String) : Op :=
  .createYear { label, startDate := 1000, endDate := 2000, isCurrent := some true }

/-- A new year becomes the current one. -/
theorem one_current_year_created : ∃ (p : Platform) (xs : List (World × World)),
    flags p.db 1 = some false ∧ flags p.db 2 = some true ∧ OneCurrent p.db ∧
      ∀ t, p.threads[0]? = some t → t.Failed → ∀ x ∈ xs, flags x.2 = flags x.1 := by
  have hplay : (playAround program InTurn 0 [] (idle oneYear : Platform)
      [.spawn (newYear "2026-2027"), .exec 0 0, .exec 0 0, .exec 0 2]).any
      (fun out => flags out.2.db 1 = some false ∧ flags out.2.db 2 = some true) = true := by
    decide +kernel
  obtain ⟨xs, p, haround, hp⟩ := exists_around_of_play hplay
  obtain ⟨hold, hnew⟩ := of_decide_eq_true hp
  exact ⟨p, xs, hold, hnew, one_current_year oneCurrent_oneYear haround⟩

/-- Two calls take the flags away before either sets its own, and both years are current; and a call
    whose second statement fails leaves no year current. -/
theorem not_one_current_year :
    (¬ ∀ (s₀ : World) (p : Platform), OneCurrent s₀ →
      Run program (onlyCalls fun o => o.writesYear = true) (idle s₀) p → OneCurrent p.db) ∧
    ¬ ∀ (s₀ : World) (p : Platform) (i : Nat) (xs : List (World × World)), OneCurrent s₀ →
      Around program (onlyCalls fun o => o.writesYear = true) (idle s₀) i xs p →
      ∀ t, p.threads[i]? = some t → t.Failed → ∀ x ∈ xs, flags x.2 = flags x.1 := by
  constructor
  · intro hall
    have hplay : ((idle oneYear : Platform).play program (onlyCalls fun o => o.writesYear = true)
        [.spawn (newYear "2026-2027"), .spawn (newYear "2027-2028"), .exec 0 0, .exec 1 0, .exec 0 0,
          .exec 1 0, .exec 0 2, .exec 1 3]).any
        (fun p => flags p.db 2 = some true ∧ flags p.db 3 = some true) = true := by
      decide +kernel
    obtain ⟨p, hrun, hp⟩ := exists_run_of_play hplay
    obtain ⟨htwo, hthree⟩ := of_decide_eq_true hp
    have hsame := oneCurrent_iff.1 (hall _ p oneCurrent_oneYear hrun) 2 3 htwo hthree
    exact absurd hsame (by decide)
  · intro hall
    have hplay : (playAround program (onlyCalls fun o => o.writesYear = true) 0 []
        (idle oneYear : Platform)
        [.spawn (newYear "2026-2027"), .exec 0 0, .exec 0 0, .fault 0 .database]).any
        (fun out => (out.1.any fun x => flags x.2 1 ≠ flags x.1 1) &&
          out.2.threads[0]?.any fun t => t.failed) = true := by
      decide +kernel
    obtain ⟨xs, p, haround, hp⟩ := exists_around_of_play hplay
    obtain ⟨hchanged, hfailed⟩ := Bool.and_eq_true_iff.1 hp
    obtain ⟨x, hx, hne⟩ := List.any_eq_true.1 hchanged
    obtain ⟨t, ht, hfailed⟩ := (Option.any_eq_true ..).1 hfailed
    have hsame := hall _ p 0 xs oneCurrent_oneYear haround t ht (Thread.failed_iff.1 hfailed) x hx
    exact of_decide_eq_true hne (congrFun hsame 1)

end GetPlatform.Planning
