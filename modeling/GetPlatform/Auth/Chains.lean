import GetPlatform.Auth.Revocation

set_option autoImplicit false

/-! # Rotation chains

What the statements of a call do to the chains of refresh tokens, and the invariant that ties their
`jti`s to those that were drawn and those that were exchanged. -/

namespace GetPlatform.Auth

open Pool

/-- A chain of the user accepts `jti`. -/
def Live (s : World) (userId jti : Id) : Prop :=
  ∃ r ∈ s.refreshSessions, r.userId = userId ∧ r.currentJti = jti ∧ r.revokedAt = none

theorem mem_accepting {s : World} {userId : Id} {jti : Option Id} {r : RefreshSession} :
    r ∈ s.accepting userId jti ↔
      r ∈ s.refreshSessions ∧ r.userId = userId ∧ some r.currentJti = jti ∧ r.revokedAt = none := by
  simp [World.accepting, Table.mem_def]

theorem jtiTaken_eq_false {s : World} {jti : Id} :
    s.jtiTaken jti = false ↔ ∀ r ∈ s.refreshSessions, r.currentJti ≠ jti := by
  simp [World.jtiTaken, Table.mem_def]

/-! ## Writes on chains -/

/-- Writes that leave the chains alone. -/
def Write.aside : Write → Bool
  | .newSession _ => false
  | .session .. => false
  | .exchange _ => false
  | .noSession .. => false
  | _ => true

theorem applyAll_aside {ws : List Write} (h : ∀ w ∈ ws, w.aside = true) (s : World) :
    (model.applyAll ws s).refreshSessions = s.refreshSessions ∧
      (model.applyAll ws s).rotated = s.rotated := by
  refine @Model.applyAll_keeps _ model
    (fun t => t.refreshSessions = s.refreshSessions ∧ t.rotated = s.rotated) ws
    (fun w hw t ht => ?_) s ⟨rfl, rfl⟩
  cases w <;> first | exact ht | exact absurd (h _ hw) Bool.false_ne_true

theorem drawn_subset_applyAll (ws : List Write) (s : World) :
    s.drawn ⊆ (model.applyAll ws s).drawn := by
  refine applyAll_grows (M := model) (r := fun s s' => s.drawn ⊆ s'.drawn)
    (fun _ => List.Subset.refl _) (fun _ _ _ => List.Subset.trans) (fun w s => ?_) ws s
  cases w <;> first | exact List.Subset.refl _ | exact List.subset_cons_self _ _

theorem mem_apply_session {id newJti : Id} {s : World} {r : RefreshSession} :
    r ∈ (World.apply (.session id newJti) s).refreshSessions ↔
      ∃ r₀ ∈ s.refreshSessions, r = if r₀.id = id then r₀.rotate newJti else r₀ :=
  @Table.mem_modify _ _ _ _ s.refreshSessions id _ (RefreshSession.key_rotate newJti) r

theorem applyAll_session (ids : List Id) (newJti : Id) (s : World) :
    (∀ r, r ∈ (model.applyAll (ids.map (Write.session · newJti)) s).refreshSessions ↔
      ∃ r₀ ∈ s.refreshSessions, r = if r₀.id ∈ ids then r₀.rotate newJti else r₀) ∧
    (model.applyAll (ids.map (Write.session · newJti)) s).rotated = s.rotated := by
  induction ids generalizing s with
  | nil =>
      refine ⟨fun r => ?_, rfl⟩
      show r ∈ s.refreshSessions ↔ _
      simp
  | cons id ids ih =>
      obtain ⟨hmem, hrot⟩ := ih (World.apply (.session id newJti) s)
      -- Rotating a row and then perhaps rotating it again is rotating it once.
      have htwice : ∀ r₀ : RefreshSession,
          (if (if r₀.id = id then r₀.rotate newJti else r₀).id ∈ ids then
            (if r₀.id = id then r₀.rotate newJti else r₀).rotate newJti
          else if r₀.id = id then r₀.rotate newJti else r₀) =
            if r₀.id ∈ id :: ids then r₀.rotate newJti else r₀ := by
        intro r₀
        by_cases h : r₀.id = id <;> simp [h, RefreshSession.rotate]
      refine ⟨fun r => ?_, hrot⟩
      rw [List.map_cons, Model.applyAll_cons]
      refine (hmem r).trans ⟨?_, ?_⟩
      · rintro ⟨r₁, hr₁, rfl⟩
        obtain ⟨r₀, hr₀, rfl⟩ := mem_apply_session.1 hr₁
        exact ⟨r₀, hr₀, htwice r₀⟩
      · rintro ⟨r₀, hr₀, rfl⟩
        exact ⟨_, mem_apply_session.2 ⟨r₀, hr₀, rfl⟩, (htwice r₀).symm⟩

theorem applyAll_noSession (ids : List Id) (userId : Id) (s : World) :
    (∀ r, r ∈ (model.applyAll (ids.map (Write.noSession userId)) s).refreshSessions ↔
      r ∈ s.refreshSessions ∧ ¬(r.id ∈ ids ∧ r.userId = userId)) ∧
    (model.applyAll (ids.map (Write.noSession userId)) s).rotated = s.rotated ∧
    (model.applyAll (ids.map (Write.noSession userId)) s).users = s.users := by
  induction ids generalizing s with
  | nil =>
      refine ⟨fun r => ?_, rfl, rfl⟩
      show r ∈ s.refreshSessions ↔ _
      simp
  | cons id ids ih =>
      obtain ⟨hmem, hrot, husers⟩ := ih (World.apply (.noSession userId id) s)
      refine ⟨fun r => ?_, hrot, husers⟩
      rw [List.map_cons, Model.applyAll_cons, hmem]
      simp only [World.apply, Table.mem_filter, decide_eq_true_eq, List.mem_cons]
      tauto

/-! ## What a statement does to the chains -/

/-- What the event `e`, answered in state `s`, leaves of the chains in `s'`. -/
inductive Effect (s : World) : Ev → World → Prop
  | aside {e : Ev} {s' : World} : exchanged e = none → opened e = none →
      (∀ userId, e.stmt ≠ .refreshSessionDeleteMany userId) →
      s'.refreshSessions = s.refreshSessions → s'.rotated = s.rotated → Effect s e s'
  | create {userId jti id : Id} {s' : World} : id ∉ s.drawn → s.jtiTaken jti = false →
      (∀ r, r ∈ s'.refreshSessions ↔ r ∈ s.refreshSessions ∨ r = ⟨id, userId, jti, none⟩) →
      s'.rotated = s.rotated → id ∈ s'.drawn →
      Effect s ⟨.refreshSessionCreate userId jti, ⟨id, userId, jti, none⟩⟩ s'
  | rotate {userId jti newJti : Id} {ids : List Id} {s' : World} : ids ≠ [] →
      ids = (s.accepting userId (some jti)).map (·.id) → s.jtiTaken newJti = false →
      (∀ r, r ∈ s'.refreshSessions ↔
        ∃ r₀ ∈ s.refreshSessions, r = if r₀.id ∈ ids then r₀.rotate newJti else r₀) →
      s'.rotated = jti :: s.rotated →
      Effect s ⟨.refreshSessionUpdateMany userId (some jti) newJti, ids⟩ s'
  | delete {userId : Id} {ids : List Id} {s' : World} :
      ids = (s.sessionsOf userId).map (·.id) →
      (∀ r, r ∈ s'.refreshSessions ↔ r ∈ s.refreshSessions ∧ ¬(r.id ∈ ids ∧ r.userId = userId)) →
      s'.rotated = s.rotated → Effect s ⟨.refreshSessionDeleteMany userId, ids⟩ s'

theorem effect_of_aside {s : World} {q : Stmt} {a : Ans q} (hex : exchanged ⟨q, a⟩ = none)
    (hop : opened ⟨q, a⟩ = none) (hdel : ∀ userId, q ≠ .refreshSessionDeleteMany userId)
    (h : ∀ w ∈ writes q a, w.aside = true) :
    Effect s ⟨q, a⟩ (model.applyAll (writes q a) s) :=
  .aside hex hop hdel (applyAll_aside h s).1 (applyAll_aside h s).2

/-- **Every statement that is answered has one of these effects.** -/
theorem effect_of_exec {q : Stmt} {c : Choice} {s : World} {a : Ans q} (h : exec q c s = some a) :
    Effect s ⟨q, a⟩ (model.applyAll (writes q a) s) := by
  cases q with
  | refreshSessionCreate userId jti =>
      cases c <;> simp only [exec, reduceCtorEq] at h
      split at h
      · cases h
      · next hfree =>
          split at h
          · obtain rfl := Option.some.inj h
            simp only [not_or, Bool.not_eq_true] at hfree
            refine .create hfree.1 hfree.2.2 (fun r => ?_) rfl (List.mem_cons_self ..)
            exact Table.mem_insert hfree.2.1
          · cases h
  | refreshSessionUpdateMany userId jti newJti =>
      simp only [exec] at h
      split at h
      · obtain rfl := Option.some.inj h
        refine effect_of_aside rfl rfl (by simp) ?_
        cases jti <;> simp [writes]
      · next hne =>
          split at h
          · cases h
          · next hfree =>
              have ha : a = (s.accepting userId jti).map (·.id) := (Option.some.inj h).symm
              have hne' : a ≠ [] := by simpa [ha] using hne
              cases jti with
              | none => simp [World.accepting] at hne
              | some jti =>
                  have hwrites : writes (.refreshSessionUpdateMany userId (some jti) newJti) a =
                      .exchange jti :: a.map (Write.session · newJti) := by
                    simp [writes, hne']
                  obtain ⟨hmem, hrot⟩ :=
                    applyAll_session a newJti (World.apply (.exchange jti) s)
                  rw [hwrites]
                  exact .rotate hne' ha (by simpa using hfree) hmem hrot
  | refreshSessionDeleteMany userId =>
      obtain ⟨hmem, hrot, -⟩ := applyAll_noSession a userId s
      exact .delete (Option.some.inj h).symm hmem hrot
  | userUpdateManyByResetToken resetTokenHash now data =>
      refine effect_of_aside rfl rfl (by simp) fun w hw => ?_
      obtain ⟨id, -, rfl⟩ := List.mem_map.1 hw
      rfl
  | _ => exact effect_of_aside rfl rfl (by simp) (by simp [writes, Write.aside])

/-! ## The invariant of the chains -/

/-- The identifiers of the chains were drawn, no two chains have one `jti`, and none has a `jti` that
    was exchanged. -/
structure Chains (s : World) : Prop where
  drawn : ∀ r ∈ s.refreshSessions, r.id ∈ s.drawn ∧ r.currentJti ∈ s.drawn
  unique : ∀ r ∈ s.refreshSessions, ∀ r' ∈ s.refreshSessions, r.currentJti = r'.currentJti → r = r'
  rotated : ∀ j ∈ s.rotated, j ∈ s.drawn ∧ ∀ r ∈ s.refreshSessions, r.currentJti ≠ j

/-- A `jti` that is about to be placed is drawn, and was never in use. -/
def Fresh (s : World) (jti : Id) : Prop :=
  jti ∈ s.drawn ∧ jti ∉ s.rotated ∧ ∀ r ∈ s.refreshSessions, r.currentJti ≠ jti

/-- The one chain that is rotated, and what becomes of the others. -/
theorem mem_rotate_iff {s s' : World} (h : Chains s) {userId jti newJti : Id} {ids : List Id}
    (hne : ids ≠ []) (hids : ids = (s.accepting userId (some jti)).map (·.id))
    (hrows : ∀ r, r ∈ s'.refreshSessions ↔
      ∃ r₀ ∈ s.refreshSessions, r = if r₀.id ∈ ids then r₀.rotate newJti else r₀) :
    ∃ r₁ ∈ s.refreshSessions, r₁.userId = userId ∧ r₁.currentJti = jti ∧ r₁.revokedAt = none ∧
      ∀ r, r ∈ s'.refreshSessions ↔
        r = r₁.rotate newJti ∨ r ∈ s.refreshSessions ∧ r.currentJti ≠ jti := by
  obtain ⟨id, hid⟩ := List.exists_mem_of_ne_nil _ hne
  rw [hids] at hid
  obtain ⟨r₁, hr₁, -⟩ := List.mem_map.1 hid
  obtain ⟨hmem, huser, hjti, hrev⟩ := mem_accepting.1 hr₁
  have hjti := Option.some.inj hjti
  -- A chain is rotated if and only if it has the `jti`.
  have hiff : ∀ r₀ ∈ s.refreshSessions, r₀.id ∈ ids ↔ r₀.currentJti = jti := by
    intro r₀ hr₀
    rw [hids]
    constructor
    · intro hin
      obtain ⟨r₂, hr₂, heq⟩ := List.mem_map.1 hin
      obtain ⟨hmem₂, -, hjti₂, -⟩ := mem_accepting.1 hr₂
      rw [← Table.eq_of_key_eq hmem₂ hr₀ heq]
      exact Option.some.inj hjti₂
    · intro heq
      rw [h.unique r₀ hr₀ r₁ hmem (heq.trans hjti.symm)]
      exact List.mem_map.2 ⟨r₁, hr₁, rfl⟩
  refine ⟨r₁, hmem, huser, hjti, hrev, fun r => (hrows r).trans ⟨?_, ?_⟩⟩
  · rintro ⟨r₀, hr₀, rfl⟩
    by_cases heq : r₀.currentJti = jti
    · rw [if_pos ((hiff r₀ hr₀).2 heq), h.unique r₀ hr₀ r₁ hmem (heq.trans hjti.symm)]
      exact .inl rfl
    · rw [if_neg fun hin => heq ((hiff r₀ hr₀).1 hin)]
      exact .inr ⟨hr₀, heq⟩
  · rintro (rfl | ⟨hr, heq⟩)
    · exact ⟨r₁, hmem, by rw [if_pos ((hiff r₁ hmem).2 hjti)]⟩
    · exact ⟨r, hr, by rw [if_neg fun hin => heq ((hiff r hr).1 hin)]⟩

theorem Chains.effect {s s' : World} {e : Ev} (h : Chains s) (heffect : Effect s e s')
    (hsub : s.drawn ⊆ s'.drawn) (hplaced : ∀ j, placed e.stmt = some j → Fresh s j) :
    Chains s' := by
  cases heffect with
  | aside hex hop hdel hrows hrot =>
      refine ⟨fun r hr => ?_, fun r hr r' hr' => ?_, fun j hj => ?_⟩
      · rw [hrows] at hr
        exact ⟨hsub (h.drawn r hr).1, hsub (h.drawn r hr).2⟩
      · rw [hrows] at hr hr'
        exact h.unique r hr r' hr'
      · rw [hrot] at hj
        exact ⟨hsub (h.rotated j hj).1, hrows ▸ (h.rotated j hj).2⟩
  | @create userId jti id _ hid htaken hrows hrot hdrawn =>
      have htaken := jtiTaken_eq_false.1 htaken
      obtain ⟨hjdrawn, hjrot, -⟩ := hplaced jti rfl
      refine ⟨fun r hr => ?_, fun r hr r' hr' heq => ?_, fun j hj => ?_⟩
      · rcases (hrows r).1 hr with hr | rfl
        · exact ⟨hsub (h.drawn r hr).1, hsub (h.drawn r hr).2⟩
        · exact ⟨hdrawn, hsub hjdrawn⟩
      · rcases (hrows r).1 hr with hr | rfl
        · rcases (hrows r').1 hr' with hr' | rfl
          · exact h.unique r hr r' hr' heq
          · exact absurd heq (htaken r hr)
        · rcases (hrows r').1 hr' with hr' | rfl
          · exact absurd heq.symm (htaken r' hr')
          · rfl
      · rw [hrot] at hj
        refine ⟨hsub (h.rotated j hj).1, fun r hr => ?_⟩
        rcases (hrows r).1 hr with hr | rfl
        · exact (h.rotated j hj).2 r hr
        · rintro rfl
          exact hjrot hj
  | @rotate userId jti newJti ids _ hne hids htaken hrows hrot =>
      have htaken := jtiTaken_eq_false.1 htaken
      obtain ⟨hjdrawn, hjrot, -⟩ := hplaced newJti rfl
      obtain ⟨r₁, hr₁, -, hjti, -, hrows⟩ := mem_rotate_iff h hne hids hrows
      refine ⟨fun r hr => ?_, fun r hr r' hr' heq => ?_, fun j hj => ?_⟩
      · rcases (hrows r).1 hr with rfl | ⟨hr, -⟩
        · exact ⟨hsub (h.drawn r₁ hr₁).1, hsub hjdrawn⟩
        · exact ⟨hsub (h.drawn r hr).1, hsub (h.drawn r hr).2⟩
      · rcases (hrows r).1 hr with rfl | ⟨hr, -⟩
        · rcases (hrows r').1 hr' with rfl | ⟨hr', -⟩
          · rfl
          · exact absurd heq.symm (htaken r' hr')
        · rcases (hrows r').1 hr' with rfl | ⟨hr', -⟩
          · exact absurd heq (htaken r hr)
          · exact h.unique r hr r' hr' heq
      · rw [hrot] at hj
        rcases List.mem_cons.1 hj with rfl | hj
        · refine ⟨hsub (hjti ▸ (h.drawn r₁ hr₁).2), fun r hr => ?_⟩
          rcases (hrows r).1 hr with rfl | ⟨hr, hne'⟩
          · rintro rfl
            exact htaken r₁ hr₁ hjti
          · exact hne'
        · refine ⟨hsub (h.rotated j hj).1, fun r hr => ?_⟩
          rcases (hrows r).1 hr with rfl | ⟨hr, -⟩
          · rintro rfl
            exact hjrot hj
          · exact (h.rotated j hj).2 r hr
  | delete hids hrows hrot =>
      refine ⟨fun r hr => ?_, fun r hr r' hr' => ?_, fun j hj => ?_⟩
      · have hr := ((hrows r).1 hr).1
        exact ⟨hsub (h.drawn r hr).1, hsub (h.drawn r hr).2⟩
      · exact h.unique r ((hrows r).1 hr).1 r' ((hrows r').1 hr').1
      · rw [hrot] at hj
        exact ⟨hsub (h.rotated j hj).1, fun r hr => (h.rotated j hj).2 r ((hrows r).1 hr).1⟩

end GetPlatform.Auth
