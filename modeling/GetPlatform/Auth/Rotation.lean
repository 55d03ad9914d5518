import GetPlatform.Auth.Chains

set_option autoImplicit false

/-! # A refresh token is exchanged once

Every `jti` is drawn by one call, placed in a chain by that call, and taken out of it by the exchange
that spends it. Two exchanges of one `jti` would both have found the chain that accepts it, and the
first has moved that chain on. A token presented after its `jti` was spent finds no chain, and the
sessions of its user are revoked in one transaction. -/

namespace GetPlatform.Auth

open Pool

/-! ## What other calls leave alone -/

/-- From `s` to `s'`: nothing drawn or exchanged is forgotten, and a chain of `s'` that was not just
    created was there before, and belonged to the same user. -/
structure Onward (s s' : World) : Prop where
  drawn : s.drawn ⊆ s'.drawn
  rotated : s.rotated ⊆ s'.rotated
  rows : ∀ r ∈ s'.refreshSessions, r.id ∉ s.drawn ∨
    ∃ r₀ ∈ s.refreshSessions, r₀.id = r.id ∧ r₀.userId = r.userId

theorem Effect.onward {s s' : World} {e : Ev} (h : Effect s e s') (hsub : s.drawn ⊆ s'.drawn) :
    Onward s s' := by
  cases h with
  | aside hex hop hdel hrows hrot =>
      refine ⟨hsub, hrot ▸ List.Subset.refl _, fun r hr => .inr ⟨r, ?_, rfl, rfl⟩⟩
      rwa [hrows] at hr
  | create hid htaken hrows hrot hdrawn =>
      refine ⟨hsub, hrot ▸ List.Subset.refl _, fun r hr => ?_⟩
      rcases (hrows r).1 hr with hr | rfl
      · exact .inr ⟨r, hr, rfl, rfl⟩
      · exact .inl hid
  | rotate hne hids htaken hrows hrot =>
      refine ⟨hsub, hrot ▸ List.subset_cons_self _ _, fun r hr => ?_⟩
      obtain ⟨r₀, hr₀, rfl⟩ := (hrows r).1 hr
      refine .inr ⟨r₀, hr₀, ?_⟩
      split <;> exact ⟨rfl, rfl⟩
  | delete hids hrows hrot =>
      exact ⟨hsub, hrot ▸ List.Subset.refl _, fun r hr => .inr ⟨r, ((hrows r).1 hr).1, rfl, rfl⟩⟩

/-- A fresh `jti` stays fresh for whoever has drawn it, as long as another one is placed. -/
theorem Fresh.effect {s s' : World} {e : Ev} {jti : Id} (h : Fresh s jti) (heffect : Effect s e s')
    (hsub : s.drawn ⊆ s'.drawn) (hne : placed e.stmt ≠ some jti) : Fresh s' jti := by
  obtain ⟨hdrawn, hrot, hfree⟩ := h
  refine ⟨hsub hdrawn, ?_⟩
  cases heffect with
  | aside hex hop hdel hrows hrot' =>
      rw [hrows, hrot']
      exact ⟨hrot, hfree⟩
  | create hid htaken hrows hrot' hdrawn' =>
      rw [hrot']
      refine ⟨hrot, fun r hr => ?_⟩
      rcases (hrows r).1 hr with hr | rfl
      · exact hfree r hr
      · exact fun heq => hne (congrArg some heq)
  | @rotate userId old newJti ids _ hids₀ hids htaken hrows hrot' =>
      constructor
      · -- The `jti` that was spent was that of a chain.
        obtain ⟨id, hid⟩ := List.exists_mem_of_ne_nil _ hids₀
        rw [hids] at hid
        obtain ⟨r₁, hr₁, -⟩ := List.mem_map.1 hid
        obtain ⟨hmem, -, hjti, -⟩ := mem_accepting.1 hr₁
        rw [hrot', List.mem_cons, not_or]
        exact ⟨fun heq => hfree r₁ hmem ((Option.some.inj hjti).trans heq.symm), hrot⟩
      · intro r hr
        obtain ⟨r₀, hr₀, rfl⟩ := (hrows r).1 hr
        split
        · exact fun heq => hne (congrArg some heq)
        · exact hfree r₀ hr₀
  | delete hids hrows hrot' =>
      rw [hrot']
      exact ⟨hrot, fun r hr => hfree r ((hrows r).1 hr).1⟩

/-! ## The commit of a revocation -/

/-- The two statements of a revocation. -/
def revocationOf (userId : Id) (row : User) (ids : List Id) : List Ev :=
  [⟨.userUpdate userId revocation, row⟩, ⟨.refreshSessionDeleteMany userId, ids⟩]

theorem replay_revocation (userId : Id) (row : User) (ids : List Id) (s : World) :
    model.replay (revocationOf userId row ids) s =
      model.applyAll (ids.map (Write.noSession userId))
        (World.apply (.user userId revocation) s) := by
  simp only [revocationOf, Model.replay, Model.writesOf, writes, List.flatMap_cons,
    List.flatMap_nil, List.append_nil, List.singleton_append]
  rfl

/-- A revocation moves the version of its user on by one, and deletes the chains it has listed. -/
theorem revocation_effect (userId : Id) (row : User) (ids : List Id) (s : World) :
    (∀ r, r ∈ (model.replay (revocationOf userId row ids) s).refreshSessions ↔
      r ∈ s.refreshSessions ∧ ¬(r.id ∈ ids ∧ r.userId = userId)) ∧
    (model.replay (revocationOf userId row ids) s).rotated = s.rotated ∧
    (model.replay (revocationOf userId row ids) s).users.find? userId =
      (s.users.find? userId).map revocation.set := by
  obtain ⟨hrows, hrot, husers⟩ :=
    applyAll_noSession ids userId (World.apply (.user userId revocation) s)
  rw [replay_revocation]
  refine ⟨hrows, hrot, ?_⟩
  rw [husers]
  exact Table.find?_modify_self _ _ _ revocation.key_set

/-! ## The invariant -/

/-- What a call has on its record about chains is still so. -/
structure Rotating (s : World) (l : Log) : Prop where
  drawn : ∀ j, (⟨.randomUUID, j⟩ : Ev) ∈ l.done →
    j ∈ s.drawn ∧ ((∃ e ∈ l.done, placed e.stmt = some j) ∨ Fresh s j)
  spent : ∀ j, Exchanges l.done j → j ∈ s.rotated
  once : l.done.countP (fun e => (exchanged e).isSome) ≤ 1
  deleted : ∀ userId ids, (⟨.refreshSessionDeleteMany userId, ids⟩ : Ev) ∈ l.done →
    ∀ id ∈ ids, id ∈ s.drawn ∧ ∀ r ∈ s.refreshSessions, r.id ≠ id
  pending : ∀ userId ids, (⟨.refreshSessionDeleteMany userId, ids⟩ : Ev) ∈ l.pending →
    ∀ id ∈ ids, id ∈ s.drawn ∧ ∀ r ∈ s.refreshSessions, r.id = id → r.userId = userId

/-- No `jti` was drawn or exchanged by two calls. -/
structure Apart (l u : Log) : Prop where
  drawn : ∀ j, (⟨.randomUUID, j⟩ : Ev) ∈ l.done → (⟨.randomUUID, j⟩ : Ev) ∉ u.done
  spent : ∀ j, Exchanges l.done j → ¬ Exchanges u.done j

theorem Apart.symm {l u : Log} (h : Apart l u) : Apart u l :=
  ⟨fun j hu hl => h.drawn j hl hu, fun j hu hl => h.spent j hl hu⟩

theorem rotating_start (s : World) (o : Op) : Rotating s (.start o) := by
  refine ⟨?_, ?_, ?_, ?_, ?_⟩ <;> simp [Exchanges]

theorem Rotating.drop {s : World} {l : Log} (h : Rotating s l) : Rotating s l.drop :=
  ⟨h.drawn, h.spent, h.once, h.deleted, by simp⟩

/-- The record of a call is not disturbed when another call places a `jti` of its own. -/
theorem Rotating.onward {s s' : World} {l : Log} (h : Rotating s l) (hon : Onward s s')
    (hfresh : ∀ j, (⟨.randomUUID, j⟩ : Ev) ∈ l.done → Fresh s j → Fresh s' j) : Rotating s' l := by
  refine ⟨fun j hj => ?_, fun j hj => hon.rotated (h.spent j hj), h.once,
    fun userId ids he id hid => ?_, fun userId ids he id hid => ?_⟩
  · obtain ⟨hd, hor⟩ := h.drawn j hj
    exact ⟨hon.drawn hd, hor.imp_right (hfresh j hj)⟩
  · obtain ⟨hd, hgone⟩ := h.deleted userId ids he id hid
    refine ⟨hon.drawn hd, fun r hr heq => ?_⟩
    rcases hon.rows r hr with hnew | ⟨r₀, hr₀, hid₀, -⟩
    · exact hnew (heq ▸ hd)
    · exact hgone r₀ hr₀ (hid₀.trans heq)
  · obtain ⟨hd, howner⟩ := h.pending userId ids he id hid
    refine ⟨hon.drawn hd, fun r hr heq => ?_⟩
    rcases hon.rows r hr with hnew | ⟨r₀, hr₀, hid₀, huser⟩
    · exact absurd (heq ▸ hd) hnew
    · rw [← huser]
      exact howner r₀ hr₀ (hid₀.trans heq)

/-! ## Statements outside a transaction -/

theorem updateMany_of_exchanged {e : Ev} {j : Id} (h : exchanged e = some j) :
    ∃ userId jti newJti, e.stmt = .refreshSessionUpdateMany userId jti newJti := by
  obtain ⟨q, a⟩ := e
  cases q with
  | refreshSessionUpdateMany userId jti newJti => exact ⟨_, _, _, rfl⟩
  | _ => cases h

theorem exchanges_append {es : List Ev} {e : Ev} {j : Id} :
    Exchanges (es ++ [e]) j ↔ Exchanges es j ∨ exchanged e = some j := by
  simp only [Exchanges, List.mem_append, List.mem_singleton]
  constructor
  · rintro ⟨e', he | rfl, h⟩
    · exact .inl ⟨e', he, h⟩
    · exact .inr h
  · rintro (⟨e', he, h⟩ | h)
    · exact ⟨e', .inl he, h⟩
    · exact ⟨e, .inr rfl, h⟩

/-- The chain that is rotated carried the `jti` that is spent. -/
theorem Effect.spent {s s' : World} {e : Ev} {j : Id} (h : Effect s e s')
    (hj : exchanged e = some j) :
    j ∈ s'.rotated ∧ ∃ r ∈ s.refreshSessions, r.currentJti = j := by
  cases h with
  | aside hex hop hdel hrows hrot => simp [hex] at hj
  | create hid htaken hrows hrot hdrawn => cases hj
  | @rotate userId jti newJti ids _ hne hids htaken hrows hrot =>
      have : jti = j := by simpa [exchanged, hne] using hj
      subst this
      obtain ⟨id, hid⟩ := List.exists_mem_of_ne_nil _ hne
      rw [hids] at hid
      obtain ⟨r₁, hr₁, -⟩ := List.mem_map.1 hid
      obtain ⟨hmem, -, hjti, -⟩ := mem_accepting.1 hr₁
      exact ⟨hrot ▸ List.mem_cons_self .., r₁, hmem, Option.some.inj hjti⟩
  | delete hids hrows hrot => cases hj

theorem Effect.deleted {s s' : World} {userId : Id} {ids : List Id} (hc : Chains s)
    (h : Effect s ⟨.refreshSessionDeleteMany userId, ids⟩ s') :
    ∀ id ∈ ids, id ∈ s.drawn ∧ ∀ r ∈ s'.refreshSessions, r.id ≠ id := by
  cases h with
  | aside hex hop hdel hrows hrot => exact absurd rfl (hdel userId)
  | delete hids hrows hrot =>
      intro id hid
      obtain ⟨r₀, hr₀, rfl⟩ := List.mem_map.1 (hids ▸ hid)
      obtain ⟨hmem, huser⟩ := List.mem_filter.1 hr₀
      refine ⟨(hc.drawn r₀ hmem).1, fun r hr heq => ?_⟩
      obtain ⟨hr, hkept⟩ := (hrows r).1 hr
      obtain rfl := Table.eq_of_key_eq hr hmem heq
      exact hkept ⟨hid, of_decide_eq_true huser⟩

theorem countP_exchanged_push {l : Log} {e : Ev}
    (h : l.done.countP (fun e => (exchanged e).isSome) ≤ 1) (hguard : stmtGuard l e.stmt) :
    (l.done ++ [e]).countP (fun e => (exchanged e).isSome) ≤ 1 := by
  rw [List.countP_append]
  cases hex : exchanged e with
  | none => simpa [hex] using h
  | some j =>
      -- An exchange is the first statement of its call that places a `jti`.
      have hzero : l.done.countP (fun e => (exchanged e).isSome) = 0 := by
        obtain ⟨userId, jti, newJti, hq⟩ := updateMany_of_exchanged hex
        rw [hq] at hguard
        refine List.countP_eq_zero.2 fun e' he hsome => ?_
        obtain ⟨k, hk⟩ := Option.isSome_iff_exists.1 hsome
        obtain ⟨_, _, _, hq'⟩ := updateMany_of_exchanged hk
        have := hguard.2.2.1 e' he
        simp [hq', placed] at this
      rw [hzero]
      simp [hex]

theorem mem_done_push {l : Log} {e e' : Ev} (htx : l.tx = none) :
    e' ∈ (l.push e).done ↔ e' ∈ l.done ∨ e' = e := by
  simp [Trace.push_of_none htx]

theorem not_drawn_of_draw {s : World} {c : Choice} {j : Id}
    (h : exec .randomUUID c s = some j) : j ∉ s.drawn := by
  cases c <;> simp only [exec, reduceCtorEq] at h
  split at h
  · cases h
  · next hnew => exact Option.some.inj h ▸ hnew

/-- A `jti` that was just drawn is fresh. -/
theorem fresh_of_draw {s : World} {c : Choice} {j : Id} (hc : Chains s)
    (h : exec .randomUUID c s = some j) : Fresh (model.applyAll (writes .randomUUID j) s) j := by
  have hnew := not_drawn_of_draw h
  refine ⟨List.mem_cons_self .., fun hrot => hnew (hc.rotated j hrot).1, fun r hr heq => ?_⟩
  exact hnew (heq ▸ (hc.drawn r hr).2)

/-- The record of the call that sends the statement. -/
theorem Rotating.push {s : World} {l : Log} {q : Stmt} {c : Choice} {a : Ans q}
    (h : Rotating s l) (hc : Chains s) (htx : l.tx = none) (hguard : stmtGuard l q)
    (hexec : exec q c s = some a) :
    Rotating (model.applyAll (writes q a) s) (l.push ⟨q, a⟩) := by
  have hsub := drawn_subset_applyAll (writes q a) s
  have heffect := effect_of_exec hexec
  have hon := heffect.onward hsub
  have hpending : (l.push ⟨q, a⟩).pending = [] := by simp [Trace.push_of_none htx, Trace.pending, htx]
  refine ⟨fun j hj => ?_, fun j hj => ?_, ?_, fun userId ids he id hid => ?_, by simp [hpending]⟩
  · rcases (mem_done_push htx).1 hj with hj | heq
    · obtain ⟨hd, hor⟩ := h.drawn j hj
      refine ⟨hsub hd, ?_⟩
      by_cases hq : placed q = some j
      · exact .inl ⟨_, (mem_done_push htx).2 (.inr rfl), hq⟩
      · rcases hor with ⟨e, he, hp⟩ | hfresh
        · exact .inl ⟨e, (mem_done_push htx).2 (.inl he), hp⟩
        · exact .inr (hfresh.effect heffect hsub hq)
    · obtain ⟨rfl, heq⟩ := Event.mk.inj heq
      obtain rfl := eq_of_heq heq
      have hfresh := fresh_of_draw hc hexec
      exact ⟨hfresh.1, .inr hfresh⟩
  · rw [Trace.push_of_none htx] at hj
    rcases exchanges_append.1 hj with hj | hj
    · exact hon.rotated (h.spent j hj)
    · exact (heffect.spent hj).1
  · rw [Trace.push_of_none htx]
    exact countP_exchanged_push h.once hguard
  · rcases (mem_done_push htx).1 he with he | heq
    · obtain ⟨hd, hgone⟩ := h.deleted userId ids he id hid
      refine ⟨hsub hd, fun r hr heq => ?_⟩
      rcases hon.rows r hr with hnew | ⟨r₀, hr₀, hid₀, -⟩
      · exact hnew (heq ▸ hd)
      · exact hgone r₀ hr₀ (hid₀.trans heq)
    · obtain ⟨rfl, heq⟩ := Event.mk.inj heq
      obtain rfl := eq_of_heq heq
      obtain ⟨hd, hgone⟩ := heffect.deleted hc id hid
      exact ⟨hsub hd, hgone⟩

/-- A `jti` that is placed was drawn by the call itself, which had not placed it yet. -/
theorem Rotating.fresh_of_placed {s : World} {l : Log} {q : Stmt} {j : Id} (h : Rotating s l)
    (hguard : stmtGuard l q) (hj : placed q = some j) :
    (⟨.randomUUID, j⟩ : Ev) ∈ l.done ∧ Fresh s j := by
  have hparts : (⟨.randomUUID, j⟩ : Ev) ∈ l.done ∧ ∀ e ∈ l.done, placed e.stmt = none := by
    cases q <;> cases hj
    · exact hguard.2
    · exact ⟨hguard.2.1, hguard.2.2.1⟩
  refine ⟨hparts.1, ?_⟩
  rcases (h.drawn j hparts.1).2 with ⟨e, he, hp⟩ | hfresh
  · simp [hparts.2 e he] at hp
  · exact hfresh

theorem Apart.push {s : World} {l u : Log} {q : Stmt} {c : Choice} {a : Ans q} (h : Apart l u)
    (hc : Chains s) (hu : Rotating s u) (htx : l.tx = none) (hexec : exec q c s = some a) :
    Apart (l.push ⟨q, a⟩) u := by
  refine ⟨fun j hj hju => ?_, fun j hj hju => ?_⟩
  · rcases (mem_done_push htx).1 hj with hj | heq
    · exact h.drawn j hj hju
    · -- The other call has drawn it before, so it cannot be drawn again.
      obtain ⟨rfl, heq⟩ := Event.mk.inj heq
      obtain rfl := eq_of_heq heq
      exact not_drawn_of_draw hexec (hu.drawn j hju).1
  · rw [Trace.push_of_none htx] at hj
    rcases exchanges_append.1 hj with hj | hj
    · exact h.spent j hj hju
    · obtain ⟨-, r, hr, rfl⟩ := (effect_of_exec hexec).spent hj
      exact (hc.rotated _ (hu.spent _ hju)).2 r hr rfl

/-! ## Statements of a revocation -/

theorem Rotating.pushTx {s : World} {l : Log} {x : Tx interface} {q : Stmt} {c : Choice} {a : Ans q}
    (h : Rotating s l) (hc : Chains s) (htx : l.tx = some x) (hguard : stmtGuard l q)
    (hexec : exec q c (l.view model s) = some a) : Rotating s (l.push ⟨q, a⟩) := by
  have hdone : (l.push ⟨q, a⟩).done = l.done := by rw [Trace.push_of_some htx]
  have hpending : (l.push ⟨q, a⟩).pending = l.pending ++ [⟨q, a⟩] := by
    simp [Trace.push_of_some htx, Trace.pending, htx]
  refine ⟨hdone ▸ h.drawn, hdone ▸ h.spent, hdone ▸ h.once, hdone ▸ h.deleted,
    fun userId ids he id hid => ?_⟩
  rw [hpending, List.mem_append, List.mem_singleton] at he
  rcases he with he | heq
  · exact h.pending userId ids he id hid
  · -- The chains that are listed are those of the user, as they were committed.
    obtain ⟨rfl, heq⟩ := Event.mk.inj heq
    obtain rfl := eq_of_heq heq
    obtain ⟨row, hone⟩ := hguard.resolve_left fun h => by simp [htx] at h
    have hview : (l.view model s).refreshSessions = s.refreshSessions := by
      rw [Trace.view, hone]
      rfl
    obtain rfl := Option.some.inj hexec
    obtain ⟨r₀, hr₀, rfl⟩ := List.mem_map.1 hid
    obtain ⟨hmem, huser⟩ := List.mem_filter.1 hr₀
    rw [hview] at hmem
    refine ⟨(hc.drawn r₀ hmem).1, fun r hr heq => ?_⟩
    rw [Table.eq_of_key_eq hr hmem heq]
    exact of_decide_eq_true huser

section Commit

variable {s : World} {l : Log} {userId : Id} {row : User} {ids : List Id}
  (hpending : l.pending = revocationOf userId row ids)
include hpending

theorem view_revocation : l.view model s = model.replay (revocationOf userId row ids) s := by
  rw [Trace.view, hpending]

theorem onward_view : Onward s (l.view model s) := by
  obtain ⟨hrows, hrot, -⟩ := revocation_effect userId row ids s
  rw [view_revocation hpending]
  exact ⟨drawn_subset_applyAll _ s, hrot ▸ List.Subset.refl _, fun r hr =>
    .inr ⟨r, ((hrows r).1 hr).1, rfl, rfl⟩⟩

theorem Chains.view (h : Chains s) : Chains (l.view model s) := by
  obtain ⟨hrows, hrot, -⟩ := revocation_effect userId row ids s
  have hsub := (onward_view (s := s) hpending).drawn
  rw [view_revocation hpending] at hsub ⊢
  refine ⟨fun r hr => ?_, fun r hr r' hr' => ?_, fun j hj => ?_⟩
  · have hr := ((hrows r).1 hr).1
    exact ⟨hsub (h.drawn r hr).1, hsub (h.drawn r hr).2⟩
  · exact h.unique r ((hrows r).1 hr).1 r' ((hrows r').1 hr').1
  · rw [hrot] at hj
    exact ⟨hsub (h.rotated j hj).1, fun r hr => (h.rotated j hj).2 r ((hrows r).1 hr).1⟩

theorem Fresh.view {j : Id} (h : Fresh s j) : Fresh (l.view model s) j := by
  obtain ⟨hrows, hrot, -⟩ := revocation_effect userId row ids s
  have hsub := (onward_view (s := s) hpending).drawn
  rw [view_revocation hpending] at hsub ⊢
  exact ⟨hsub h.1, hrot ▸ h.2.1, fun r hr => h.2.2 r ((hrows r).1 hr).1⟩

theorem Rotating.commit (h : Rotating s l) : Rotating (l.view model s) l.commit := by
  have hdone : ∀ e, e ∈ l.commit.done ↔ e ∈ l.done ∨ e ∈ revocationOf userId row ids := by
    simp [hpending]
  have hon := onward_view (s := s) hpending
  have hold := h.onward hon fun j _ hj => hj.view hpending
  refine ⟨fun j hj => ?_, fun j hj => ?_, ?_, fun uid ids' he id hid => ?_, by simp⟩
  · rcases (hdone _).1 hj with hj | hj
    · obtain ⟨hd, hor⟩ := hold.drawn j hj
      refine ⟨hd, hor.imp_left ?_⟩
      rintro ⟨e, he, hp⟩
      exact ⟨e, (hdone e).2 (.inl he), hp⟩
    · simp [revocationOf] at hj
  · obtain ⟨e, he, hex⟩ := hj
    rcases (hdone e).1 he with he | he
    · exact hold.spent j ⟨e, he, hex⟩
    · simp only [revocationOf, List.mem_cons, List.not_mem_nil, or_false] at he
      rcases he with rfl | rfl <;> cases hex
  · rw [Trace.commit_done, List.countP_append, hpending]
    simpa [revocationOf, exchanged] using h.once
  · rcases (hdone _).1 he with he | he
    · exact hold.deleted uid ids' he id hid
    · simp only [revocationOf, List.mem_cons, Event.mk.injEq, reduceCtorEq, false_and, false_or,
        List.not_mem_nil, or_false, Stmt.refreshSessionDeleteMany.injEq] at he
      obtain ⟨rfl, heq⟩ := he
      obtain rfl := eq_of_heq heq
      obtain ⟨hd, howner⟩ := h.pending uid ids' (by simp [hpending, revocationOf]) id hid
      refine ⟨hon.drawn hd, fun r hr heq => ?_⟩
      rw [view_revocation hpending] at hr
      obtain ⟨hr, hkept⟩ := ((revocation_effect uid row ids' s).1 r).1 hr
      exact hkept ⟨heq ▸ hid, howner r hr heq⟩

theorem Apart.commit {u : Log} (h : Apart l u) : Apart l.commit u := by
  refine ⟨fun j hj => h.drawn j ?_, fun j hj => h.spent j ?_⟩
  · simpa [hpending, revocationOf] using hj
  · obtain ⟨e, he, hex⟩ := hj
    simp only [Trace.commit_done, hpending, List.mem_append] at he
    refine ⟨e, he.resolve_right fun he => ?_, hex⟩
    simp only [revocationOf, List.mem_cons, List.not_mem_nil, or_false] at he
    rcases he with rfl | rfl <;> cases hex

end Commit

/-! ## Every interleaving -/

theorem rotation_rules :
    Rules (M := model) (ε := Err) (α := Reply) guards anyStep Chains Rotating Apart where
  symm _ _ h := h.symm
  start _ o _ _ := rotating_start _ o
  start_pair _ _ _ _ _ := ⟨by simp, by simp [Exchanges]⟩
  env _ _ _ h := ⟨⟨h.drawn, h.unique, h.rotated⟩, fun _ hl =>
    ⟨hl.drawn, hl.spent, hl.once, hl.deleted, hl.pending⟩⟩
  drop _ _ h := h.drop
  drop_pair _ _ h := ⟨h.drawn, h.spent⟩
  openTx _ _ _ _ h := ⟨h.drawn, h.spent, h.once, h.deleted, by simp⟩
  openTx_pair _ _ _ _ h := ⟨h.drawn, h.spent⟩
  call p i c t q a h hcall htx := by
    have hexec : exec q c p.db = some a := by simpa [htx] using hcall.exec
    have hown := h.thread i t hcall.here
    have hsub := drawn_subset_applyAll (writes q a) p.db
    have heffect := effect_of_exec hexec
    have hguard : stmtGuard t.trace q := hcall.guard
    refine ⟨h.db.effect heffect hsub fun j hj => (hown.fresh_of_placed hguard hj).2,
      hown.push h.db htx hguard hexec, fun u hu => ⟨?_, ?_⟩⟩
    · -- What this call places it has drawn itself, so it disturbs nobody.
      refine (h.other hu).onward (heffect.onward hsub) fun j hj hfresh =>
        hfresh.effect heffect hsub fun hplaced => ?_
      exact (h.other_pair hcall.here hu).drawn j (hown.fresh_of_placed hguard hplaced).1 hj
    · exact (h.other_pair hcall.here hu).push h.db (h.other hu) htx hexec
  callTx p i c t q a x h hcall htx := by
    refine ⟨(h.thread i t hcall.here).pushTx h.db htx hcall.guard hcall.exec, fun u hu => ?_⟩
    have hpair := h.other_pair hcall.here hu
    have hdone : (t.trace.push ⟨q, a⟩).done = t.trace.done := by rw [Trace.push_of_some htx]
    exact ⟨hdone ▸ hpair.drawn, hdone ▸ hpair.spent⟩
  commit p i c t x h hcommit := by
    obtain ⟨userId, row, ids, hpending⟩ := hcommit.guard
    refine ⟨h.db.view hpending, (h.thread i t hcommit.here).commit hpending, fun u hu => ⟨?_, ?_⟩⟩
    · exact (h.other hu).onward (onward_view hpending) fun _ _ hj => hj.view hpending
    · exact (h.other_pair hcommit.here hu).commit hpending

theorem rotation_holds {s₀ : World} (hs₀ : Chains s₀) {p : Platform}
    (hrun : Run prog anyStep (idle s₀) p) :
    Sound guards p ∧ Holds Chains Rotating Apart p :=
  rotation_rules.holds (fun _ o _ => prog_sound o) hs₀ hrun

/-! ## At most one exchange -/

/-- How often `jti` was exchanged by the calls of `p`. -/
def exchanges (p : Platform) (jti : Id) : Nat :=
  (p.threads.map fun t => t.trace.done.countP fun e => exchanged e = some jti).sum

theorem countP_exchanged_eq_zero {es : List Ev} {jti : Id} :
    es.countP (fun e => exchanged e = some jti) = 0 ↔ ¬ Exchanges es jti := by
  simp [List.countP_eq_zero, Exchanges]

theorem exchanges_le_one {p : Platform} (h : Holds Chains Rotating Apart p) (jti : Id) :
    exchanges p jti ≤ 1 := by
  refine sum_threads_le_one _ (fun i t ht => ?_) fun i j t u hne ht hu => ?_
  · refine Nat.le_trans (List.countP_mono_left fun e _ he => ?_) (h.thread i t ht).once
    simp [of_decide_eq_true he]
  · have hpair := h.pair i j t u hne ht hu
    by_cases hex : Exchanges t.trace.done jti
    · exact .inr (countP_exchanged_eq_zero.2 (hpair.spent jti hex))
    · exact .inl (countP_exchanged_eq_zero.2 hex)

/-! ## A token that was exchanged before -/

/-- A spent `jti` stays spent. -/
theorem rotated_subset_run {p₁ p₂ : Platform} (hrun : Run prog anyStep p₁ p₂) :
    p₁.db.rotated ⊆ p₂.db.rotated := by
  refine hrun.grows (r := fun s s' => s.rotated ⊆ s'.rotated) (fun _ => List.Subset.refl _)
    (fun _ _ _ => List.Subset.trans) (fun w s => ?_) fun _ _ => List.Subset.refl _
  cases w <;> first | exact List.Subset.refl _ | exact List.subset_cons_self _ _

/-- The statements with which `refreshTokens` checks a token. -/
def checks : Stmt → Prop
  | .jwtVerify .. => True
  | .userFindUnique _ => True
  | _ => False

/-- The call at place `i` has not begun, or has done no more than check its token. -/
def Presenting (p : Platform) (i : Nat) : Prop :=
  ∀ t, p.threads[i]? = some t → ∀ e ∈ t.trace.events, checks e.stmt

/-- What a call that was presenting its token has done since, other than checking it. -/
theorem Presenting.answered {p₁ p₂ : Platform} {i : Nat} (h : Presenting p₁ i)
    (h₂ : Run prog anyStep p₁ p₂) {t : Thread interface Op Err Reply}
    (ht : p₂.threads[i]? = some t) {e : Ev} (he : e ∈ t.trace.done) (hchecks : ¬ checks e.stmt) :
    Answered prog anyStep p₁ i e p₂ := by
  rcases h₂.answered ht (Trace.mem_events.2 (.inl he)) with ⟨t₁, ht₁, hold⟩ | hanswered
  · exact absurd (h t₁ ht₁ e hold) hchecks
  · exact hanswered

/-- A `jti` that was exchanged before is not exchanged again. -/
theorem Presenting.not_exchanges {s₀ : World} (hs₀ : Chains s₀) {p₁ p₂ : Platform}
    (h₁ : Run prog anyStep (idle s₀) p₁) (h₂ : Run prog anyStep p₁ p₂) {jti : Id}
    (hrot : jti ∈ p₁.db.rotated) {i : Nat} (h : Presenting p₁ i)
    {t : Thread interface Op Err Reply} (ht : p₂.threads[i]? = some t) :
    ¬ Exchanges t.trace.done jti := by
  rintro ⟨e, he, hex⟩
  obtain ⟨userId, jti', newJti, hstmt⟩ := updateMany_of_exchanged hex
  obtain ⟨q, tq, hq, -, htq, hnext, c, hexec⟩ := h.answered h₂ ht he (by simp [hstmt, checks])
  -- The exchange found a chain with the `jti`, but one that is spent is in no chain.
  obtain ⟨hsound, hholds⟩ := rotation_holds hs₀ (Run.trans h₁ hq)
  have hguard : stmtGuard tq.trace e.stmt := hsound.guard htq hnext
  rw [hstmt] at hguard
  rw [Trace.view_of_none hguard.1] at hexec
  obtain ⟨-, r, hr, hjti⟩ := (effect_of_exec hexec).spent hex
  exact (hholds.db.rotated jti (rotated_subset_run hq hrot)).2 r hr hjti

/-- The sessions of a user are revoked on the way from `p₁` to `p₂`. -/
structure RevokedBetween (p₁ p₂ : Platform) (userId : Id) : Prop where
  /-- The version moves on by one. -/
  version : ∃ q a q', Run prog anyStep p₁ q ∧ q.step prog a = some q' ∧ Run prog anyStep q' p₂ ∧
    ∃ u u', q.db.users.find? userId = some u ∧ q'.db.users.find? userId = some u' ∧
      u'.sessionVersion = u.sessionVersion + 1
  /-- No chain that the revocation found is left. -/
  chains : ∃ q, Run prog anyStep p₁ q ∧ Run prog anyStep q p₂ ∧
    ∀ r₀ ∈ q.db.sessionsOf userId, ∀ r ∈ p₂.db.refreshSessions, r.id ≠ r₀.id

/-- Where a call has the deletion of a user's chains on its record, those it found are gone. -/
theorem Presenting.chains_gone {s₀ : World} (hs₀ : Chains s₀) {p₁ p₂ : Platform}
    (h₁ : Run prog anyStep (idle s₀) p₁) (h₂ : Run prog anyStep p₁ p₂) {i : Nat}
    (h : Presenting p₁ i) {t : Thread interface Op Err Reply} (ht : p₂.threads[i]? = some t)
    {userId : Id} {ids : List Id}
    (he : (⟨.refreshSessionDeleteMany userId, ids⟩ : Ev) ∈ t.trace.done) :
    ∃ q, Run prog anyStep p₁ q ∧ Run prog anyStep q p₂ ∧
      ∀ r₀ ∈ q.db.sessionsOf userId, ∀ r ∈ p₂.db.refreshSessions, r.id ≠ r₀.id := by
  obtain ⟨q, tq, hq, hq₂, htq, hnext, c, hexec⟩ := h.answered h₂ ht he (by simp [checks])
  refine ⟨q, hq, hq₂, fun r₀ hr₀ => ?_⟩
  have hguard : stmtGuard tq.trace (.refreshSessionDeleteMany userId) :=
    (rotation_holds hs₀ (Run.trans h₁ hq)).1.guard htq hnext
  -- Whatever the transaction did before, it did not touch the chains.
  have hview : (tq.trace.view model q.db).refreshSessions = q.db.refreshSessions := by
    rcases hguard with ⟨htx, -⟩ | ⟨row, hone⟩
    · rw [Trace.view_of_none htx]
    · rw [Trace.view, hone]
      rfl
  have hids : (World.sessionsOf (tq.trace.view model q.db) userId).map (·.id) = ids :=
    Option.some.inj hexec
  rw [World.sessionsOf, hview] at hids
  have hmem : r₀.id ∈ ids := hids ▸ List.mem_map_of_mem hr₀
  exact (((rotation_holds hs₀ (Run.trans h₁ h₂)).2.thread i t ht).deleted userId ids he _ hmem).2

/-- Where a call has the increment of a user's version on its record, there was a step at which the
    version moved on. -/
theorem Presenting.version_moved {s₀ : World} (hs₀ : Chains s₀) {p₁ p₂ : Platform}
    (h₁ : Run prog anyStep (idle s₀) p₁) (h₂ : Run prog anyStep p₁ p₂) {i : Nat}
    (h : Presenting p₁ i) {t : Thread interface Op Err Reply} (ht : p₂.threads[i]? = some t)
    {userId : Id} {row : User}
    (he : (⟨.userUpdate userId revocation, row⟩ : Ev) ∈ t.trace.done) :
    ∃ q a q', Run prog anyStep p₁ q ∧ q.step prog a = some q' ∧ Run prog anyStep q' p₂ ∧
      ∃ u u', q.db.users.find? userId = some u ∧ q'.db.users.find? userId = some u' ∧
        u'.sessionVersion = u.sessionVersion + 1 := by
  -- Where the statement was answered the user existed, and has existed since.
  have hexists : ∀ (q : Platform) (tq : Thread interface Op Err Reply),
      Run prog anyStep (idle s₀) q → q.threads[i]? = some tq →
      Answers q.db tq (⟨.userUpdate userId revocation, row⟩ : Ev) →
      ∃ u, q.db.users.find? userId = some u := by
    rintro q tq hq htq ⟨hnext, c, hexec⟩
    have hguard : stmtGuard tq.trace (.userUpdate userId revocation) :=
      (rotation_holds hs₀ hq).1.guard htq hnext
    have hpending : tq.trace.pending = [] := hguard.elim Trace.pending_of_none And.left
    rw [Trace.view, hpending] at hexec
    obtain ⟨u, hu, -⟩ := Option.map_eq_some_iff.1 hexec
    exact ⟨u, hu⟩
  obtain ⟨q, a, q', hq, -, hstep, hq', hnot, t', ht', hstands⟩ := h₂.first
    (K := fun p => ∃ t, p.threads[i]? = some t ∧
      (⟨.userUpdate userId revocation, row⟩ : Ev) ∈ t.trace.done)
    (by
      rintro ⟨t₁, ht₁, hold⟩
      exact h t₁ ht₁ _ (Trace.mem_events.2 (.inl hold))) ⟨t, ht, he⟩
  have hq₀ := Run.trans h₁ hq
  refine ⟨q, a, q', hq, hstep, hq', ?_⟩
  suffices hmoved : (∃ u, q.db.users.find? userId = some u) ∧
      q'.db.users.find? userId = (q.db.users.find? userId).map revocation.set by
    obtain ⟨⟨u, hu⟩, hfind⟩ := hmoved
    exact ⟨u, revocation.set u, hu, by rw [hfind, hu]; rfl, rfl⟩
  obtain ⟨tq, htq, ⟨-, hanswers, hdb⟩ | ⟨k, hk, hpend, hdb⟩⟩ :=
    (moves_of_step hstep).stands ht' hstands fun tq htq hold => hnot ⟨tq, htq, hold⟩
  · refine ⟨hexists q tq hq₀ htq hanswers, ?_⟩
    rw [hdb]
    exact Table.find?_modify_self _ _ _ revocation.key_set
  · obtain ⟨userId', row', ids, hpending⟩ :=
      ((rotation_holds hs₀ hq₀).1.conforms i tq htq _ hk).2.1
    obtain ⟨rfl, -⟩ : userId' = userId ∧ row' = row := by
      simpa [hpending, eq_comm] using hpend
    constructor
    · rcases hq₀.answered htq (Trace.mem_events.2 (.inr hpend)) with
        ⟨t₀, ht₀, -⟩ | ⟨r, tr, hr, hrq, htr, hanswers⟩
      · simp [idle] at ht₀
      · obtain ⟨u, hu⟩ := hexists r tr hr htr hanswers
        obtain ⟨u', hu', -⟩ := later_run hrq _ u hu
        exact ⟨u', hu'⟩
    · rw [hdb, view_revocation hpending]
      exact (revocation_effect _ _ _ _).2.2

/-- **A refresh token is good for one exchange.** Take any reachable state `p₂`. No `jti` was
    exchanged twice, so no two calls have accepted tokens with one `jti`. And a call that presents a
    token whose `jti` was exchanged before, in `p₁`, and finds its user in the version of the token,
    does not succeed: it ends, unless the database fails it, with every session of the user
    revoked. -/
theorem refresh_token_single_use {s₀ : World} (hs₀ : Chains s₀) {p₁ p₂ : Platform}
    (h₁ : Run prog anyStep (idle s₀) p₁) (h₂ : Run prog anyStep p₁ p₂) :
    (∀ jti, exchanges p₂ jti ≤ 1) ∧
    (∀ i j reply reply' token token', Accepts p₂ i reply token .refresh →
      Accepts p₂ j reply' token' .refresh → token.payload.jti = token'.payload.jti → i = j) ∧
    ∀ i t token u jti, Presenting p₁ i → p₂.threads[i]? = some t →
      t.trace.op = .refreshTokens token → Current t.trace.done token u →
      token.payload.jti = some jti → jti ∈ p₁.db.rotated →
        (∀ session, t.rest ≠ some (.ret (.session session))) ∧
        ∀ e, t.rest = some (.fail e) →
          (∃ f, e = .database f) ∨ RevokedBetween p₁ p₂ token.payload.sub := by
  have hrun := Run.trans h₁ h₂
  obtain ⟨-, hholds⟩ := rotation_holds hs₀ hrun
  have hspends : ∀ i reply token, Accepts p₂ i reply token .refresh →
      ∃ t, p₂.threads[i]? = some t ∧ Spends t.trace.done token := by
    rintro i reply token ⟨t, ht, hrest, haccepts, hpresents⟩
    have hreturns : Returns t.trace reply := hrun.conforms prog_conforms i t ht _ hrest
    exact ⟨t, ht, ((hreturns haccepts _ _ hpresents).2 rfl).1⟩
  refine ⟨exchanges_le_one hholds, fun i j reply reply' token token' hi hj heq => ?_,
    fun i t token u jti hpresenting ht hop hcurrent hjti hrot => ?_⟩
  · obtain ⟨t, ht, jti, hjti, hex⟩ := hspends i reply token hi
    obtain ⟨t', ht', jti', hjti', hex'⟩ := hspends j reply' token' hj
    obtain rfl : jti = jti' := Option.some.inj (hjti.symm.trans (heq.trans hjti'))
    by_contra hne
    exact (hholds.pair i j t t' hne ht ht').spent jti hex hex'
  · have hnot := hpresenting.not_exchanges hs₀ h₁ h₂ hrot ht
    have hunspent : ¬ Spends t.trace.done token := by
      rintro ⟨jti', hjti', hex⟩
      obtain rfl : jti = jti' := Option.some.inj (hjti.symm.trans hjti')
      exact hnot hex
    constructor
    · intro session hrest
      have hreturns : Returns t.trace (.session session) :=
        hrun.conforms prog_conforms i t ht _ hrest
      exact hunspent ((hreturns rfl token .refresh (by rw [hop]; rfl)).2 rfl).1
    · intro e hrest
      have hfails : Fails t.trace e := hrun.conforms prog_conforms i t ht _ hrest
      rcases hfails token u hop hcurrent with hdb | hspent | ⟨ids, row, hupdate, hdelete⟩
      · exact .inl hdb
      · exact absurd hspent hunspent
      · exact .inr ⟨hpresenting.version_moved hs₀ h₁ h₂ ht hupdate,
          hpresenting.chains_gone hs₀ h₁ h₂ ht hdelete⟩

/-! ## A replay -/

/-- The call at place `i` has ended with `e`. -/
def failedWith (p : Platform) (i : Nat) (e : Err) : Bool :=
  (p.threads[i]?).any fun t => match t.rest with
    | some (.fail e') => e' = e
    | _ => false

/-- The call at place `i` is a refresh with `token`, and found its user in the version of it. -/
def foundCurrentAt (p : Platform) (i : Nat) (token : Token) : Bool :=
  (p.threads[i]?).any fun t => t.trace.op.presents = some (token, .refresh) &&
    t.trace.done.any fun
      | ⟨.userFindUnique id, some u⟩ => id = token.payload.sub ∧ u.isActive = true ∧
          token.payload.sessionVersion = some u.sessionVersion
      | _ => false

theorem refreshTokens_of_presents {o : Op} {token : Token}
    (h : o.presents = some (token, .refresh)) : o = .refreshTokens token := by
  cases o <;> simp_all [Op.presents]

theorem current_of_foundCurrentAt {p : Platform} {i : Nat} {token : Token}
    (h : foundCurrentAt p i token = true) : ∃ t u, p.threads[i]? = some t ∧
      t.trace.op = .refreshTokens token ∧ Current t.trace.done token u := by
  obtain ⟨t, ht, h⟩ := (Option.any_eq_true ..).1 h
  simp only [Bool.and_eq_true, decide_eq_true_eq] at h
  obtain ⟨hop, h⟩ := h
  obtain ⟨e, he, h⟩ := List.any_eq_true.1 h
  split at h
  · next id u =>
      obtain ⟨rfl, hmatch⟩ := of_decide_eq_true h
      exact ⟨t, u, ht, refreshTokens_of_presents hop, he, hmatch⟩
  · cases h

theorem chains_signedIn : Chains signedIn := by
  have hrows : ∀ r ∈ signedIn.refreshSessions, r = ⟨5, 1, 7, none⟩ := by
    intro r hr
    exact List.mem_singleton.1 hr
  refine ⟨fun r hr => ?_, fun r hr r' hr' _ => ?_, fun j hj => ?_⟩
  · rw [hrows r hr]
    decide
  · rw [hrows r hr, hrows r' hr']
  · cases hj

/-- The student refreshes, and the old token is presented once more. -/
theorem replayed : ∃ p₁ p₂ : Platform, Run prog anyStep (idle signedIn) p₁ ∧
    Run prog anyStep p₁ p₂ ∧ 7 ∈ p₁.db.rotated ∧ p₁.threads.length = 1 ∧
      foundCurrentAt p₂ 1 firstToken = true ∧ failedWith p₂ 1 sessionRevoked = true := by
  have hplay : ((idle signedIn : Platform).play prog anyStep
      (refreshStart 0 firstToken ++ refreshFinish 0 8)).any (fun p₁ =>
        decide (7 ∈ p₁.db.rotated ∧ p₁.threads.length = 1) &&
          (p₁.play prog anyStep (refreshStart 1 firstToken ++
            .exec 1 (.nat 9) :: commands 1 5)).any fun p₂ =>
              foundCurrentAt p₂ 1 firstToken && failedWith p₂ 1 sessionRevoked) = true := by
    decide +kernel
  obtain ⟨p₁, h₁, h⟩ := exists_run_of_play hplay
  simp only [Bool.and_eq_true, decide_eq_true_eq] at h
  obtain ⟨⟨hrot, hlength⟩, h⟩ := h
  obtain ⟨p₂, h₂, h⟩ := exists_run_of_play h
  simp only [Bool.and_eq_true] at h
  exact ⟨p₁, p₂, h₁, h₂, hrot, hlength, h.1, h.2⟩

/-- The `jti` was exchanged once, and the second presentation has revoked the student's sessions. -/
theorem refresh_token_single_use_replayed : ∃ p₁ p₂ : Platform,
    Run prog anyStep (idle signedIn) p₁ ∧ Run prog anyStep p₁ p₂ ∧ 7 ∈ p₁.db.rotated ∧
      exchanges p₂ 7 ≤ 1 ∧ RevokedBetween p₁ p₂ 1 := by
  obtain ⟨p₁, p₂, h₁, h₂, hrot, hlength, hfound, hfailed⟩ := replayed
  obtain ⟨honce, -, hreplay⟩ := refresh_token_single_use chains_signedIn h₁ h₂
  obtain ⟨t, u, ht, hop, hcurrent⟩ := current_of_foundCurrentAt hfound
  have hpresenting : Presenting p₁ 1 := by
    intro t₁ ht₁
    have := (List.getElem?_eq_some_iff.1 ht₁).1
    omega
  obtain ⟨-, hfails⟩ := hreplay 1 t firstToken u 7 hpresenting ht hop hcurrent rfl hrot
  have hrest : t.rest = some (.fail sessionRevoked) := by
    simp only [failedWith, ht, Option.any_some] at hfailed
    split at hfailed
    · next e hrest => rw [hrest, of_decide_eq_true hfailed]
    · cases hfailed
  refine ⟨p₁, p₂, h₁, h₂, hrot, honce 7, (hfails _ hrest).resolve_left ?_⟩
  rintro ⟨f, hf⟩
  cases hf

end GetPlatform.Auth
