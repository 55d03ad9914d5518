import GetPlatform.Auth.Guards

set_option autoImplicit false

/-! # A revoked session stays revoked

The version of a user never decreases, and each verifier compares the version a token carries with
the one it reads. So once the version has moved past that of a token, whoever reads the user from then
on rejects the token. An exchange that had read the user before may still finish; the pair it returns
carries the old version, and is rejected in turn. -/

namespace GetPlatform.Auth

open Pool

/-! ## Versions only grow -/

/-- Every user of `s` is one of `s'`, in the same version or a later one, and as active as before. -/
def Later (s s' : World) : Prop :=
  ∀ id u, s.users.find? id = some u →
    ∃ u', s'.users.find? id = some u' ∧ u.sessionVersion ≤ u'.sessionVersion ∧
      u'.isActive = u.isActive

theorem Later.refl (s : World) : Later s s := fun _ u h => ⟨u, h, Nat.le_refl _, rfl⟩

theorem Later.trans {s s' s'' : World} (h : Later s s') (h' : Later s' s'') : Later s s'' := by
  intro id u hu
  obtain ⟨u', hu', hle, hactive⟩ := h id u hu
  obtain ⟨u'', hu'', hle', hactive'⟩ := h' id u' hu'
  exact ⟨u'', hu'', Nat.le_trans hle hle', hactive'.trans hactive⟩

theorem UserData.version_le_set (d : UserData) (u : User) :
    u.sessionVersion ≤ (d.set u).sessionVersion := by
  unfold set
  dsimp only
  split <;> omega

theorem later_apply (w : Write) (s : World) : Later s (World.apply w s) := by
  intro id u hu
  cases w with
  | user k data =>
      by_cases hid : id = k
      · subst hid
        exact ⟨data.set u, by simp [World.apply, hu], data.version_le_set u, rfl⟩
      · exact ⟨u, by simp [World.apply, Table.find?_modify, hid, hu], Nat.le_refl _, rfl⟩
  | newUser row => exact ⟨u, Table.find?_insert_of_find? hu, Nat.le_refl _, rfl⟩
  | _ => exact ⟨u, hu, Nat.le_refl _, rfl⟩

theorem later_applyAll (ws : List Write) (s : World) : Later s (model.applyAll ws s) :=
  applyAll_grows (M := model) Later.refl (fun _ _ _ => Later.trans) later_apply ws s

theorem later_view (l : Log) (s : World) : Later s (l.view model s) := later_applyAll _ s

theorem later_run {R : Platform → Step model Op → Prop} {p₀ p : Platform}
    (hrun : Run prog R p₀ p) : Later p₀.db p.db :=
  hrun.grows (r := Later) Later.refl (fun _ _ _ => Later.trans) later_apply
    fun _ _ _ u hu => ⟨u, hu, Nat.le_refl _, rfl⟩

/-! ## Nobody accepts a version that is over -/

/-- The call at place `i` has returned and accepts `token` as one of kind `kind`. -/
def Accepts (p : Platform) (i : Nat) (reply : Reply) (token : Token) (kind : Kind) : Prop :=
  ∃ t, p.threads[i]? = some t ∧ t.rest = some (.ret reply) ∧ reply.accepts = true ∧
    t.trace.op.presents = some (token, kind)

/-- The call at place `i` has read the user of `token` active and in the version of `token`. -/
def FoundCurrent (p : Platform) (i : Nat) (token : Token) : Prop :=
  ∃ t u, p.threads[i]? = some t ∧ Current t.trace.events token u

/-- Kinds of tokens that carry a version. -/
def Kind.Versioned (kind : Kind) : Prop := kind = .access ∨ kind = .refresh

theorem Accepted.current {es : List Ev} {token : Token} {kind : Kind} (h : Accepted es token kind)
    (hkind : kind.Versioned) : ∃ u, Current es token u := by
  obtain ⟨-, h⟩ := h
  rcases hkind with rfl | rfl <;> exact h

/-- Whoever reads the user after the version has moved on does not find it in the old version. -/
theorem foundCurrent_of_events {R : Platform → Step model Op → Prop} {p₁ p₂ : Platform}
    (hrun : Run prog R p₁ p₂) {i : Nat} {t : Thread interface Op Err Reply}
    (ht : p₂.threads[i]? = some t) {token : Token} {u u₁ : User}
    (hcurrent : Current t.trace.events token u)
    (hu₁ : p₁.db.users.find? token.payload.sub = some u₁)
    (hlt : u.sessionVersion < u₁.sessionVersion) : FoundCurrent p₁ i token := by
  obtain ⟨hread, hmatch⟩ := hcurrent
  rcases hrun.answered ht hread with ⟨t₁, ht₁, hold⟩ | ⟨q, tq, hq, -, -, -, c, hexec⟩
  · exact ⟨t₁, u, ht₁, hold, hmatch⟩
  · -- The read came later: it saw a version at least as late as that at `p₁`.
    have hfind : (tq.trace.view model q.db).users.find? token.payload.sub = some u :=
      Option.some.inj hexec
    obtain ⟨u₂, hu₂, hle, -⟩ := ((later_run hq).trans (later_view _ _)) _ _ hu₁
    obtain rfl := Option.some.inj (hu₂.symm.trans hfind)
    omega

/-- **Revocation is final.** Take any reachable state, and any state reached from it. Versions have
    not decreased in between; and a call that accepts, in the later state, an access or refresh token
    of a version lower than the user's in the earlier one had read the user before the earlier state
    was reached. If it exchanged the token, the new pair carries the same lower version. -/
theorem revoked_version_rejected {s₀ : World} {p₁ p₂ : Platform}
    (h₁ : Run prog anyStep (idle s₀) p₁) (h₂ : Run prog anyStep p₁ p₂) :
    (∀ id u₁, p₁.db.users.find? id = some u₁ →
      ∃ u₂, p₂.db.users.find? id = some u₂ ∧ u₁.sessionVersion ≤ u₂.sessionVersion) ∧
    ∀ i reply token kind, Accepts p₂ i reply token kind → kind.Versioned →
      ∀ u₁ v, p₁.db.users.find? token.payload.sub = some u₁ →
        token.payload.sessionVersion = some v → v < u₁.sessionVersion →
          FoundCurrent p₁ i token ∧ (kind = .refresh → reply.Carries (some v)) := by
  constructor
  · intro id u₁ hu₁
    obtain ⟨u₂, hu₂, hle, -⟩ := later_run h₂ id u₁ hu₁
    exact ⟨u₂, hu₂, hle⟩
  · rintro i reply token kind ⟨t, ht, hrest, haccepts, hpresents⟩ hkind u₁ v hu₁ hv hlt
    have hreturns : Returns t.trace reply :=
      (Run.trans h₁ h₂).conforms prog_conforms i t ht _ hrest
    obtain ⟨haccepted, hcarries⟩ := hreturns haccepts token kind hpresents
    obtain ⟨u, hread, hactive, hversion⟩ := haccepted.current hkind
    have hu : u.sessionVersion = v := Option.some.inj (hversion.symm.trans hv)
    refine ⟨foundCurrent_of_events h₂ ht ⟨Trace.mem_events.2 (.inl hread), hactive, hversion⟩ hu₁
      (hu ▸ hlt), fun h => ?_⟩
    rw [← hv]
    exact (hcarries h).2

/-! ## The exchange that was under way -/

def versionIs (s : World) (id v : Nat) : Bool := (s.users.find? id).any (·.sessionVersion = v)

/-- The call at place `i` is a refresh with `token`, and has returned a new pair. -/
def exchangedAt (p : Platform) (i : Nat) (token : Token) : Bool :=
  (p.threads[i]?).any fun t => t.trace.op.presents = some (token, .refresh) && match t.rest with
    | some (.ret (.session _)) => true
    | _ => false

theorem accepts_of_exchangedAt {p : Platform} {i : Nat} {token : Token}
    (h : exchangedAt p i token = true) : ∃ reply, Accepts p i reply token .refresh := by
  obtain ⟨t, ht, h⟩ := (Option.any_eq_true ..).1 h
  simp only [Bool.and_eq_true, decide_eq_true_eq] at h
  obtain ⟨hop, h⟩ := h
  split at h
  · next s hrest => exact ⟨_, t, ht, hrest, rfl, hop⟩
  · cases h

/-- A refresh has read the user; the password is changed; and the refresh finishes. -/
theorem overtaken : ∃ p₁ p₂ : Platform, Run prog anyStep (idle signedIn) p₁ ∧
    Run prog anyStep p₁ p₂ ∧ versionIs p₁.db 1 1 = true ∧ exchangedAt p₂ 0 firstToken = true ∧
    (p₁.threads[0]?).any (fun t => t.next?.isSome) = true := by
  have hplay : ((idle signedIn : Platform).play prog anyStep
      (refreshStart 0 firstToken ++ changeCommands 1)).any (fun p₁ => versionIs p₁.db 1 1 &&
        (p₁.threads[0]?).any (fun t => t.next?.isSome) &&
          (p₁.play prog anyStep (refreshFinish 0 8)).any (exchangedAt · 0 firstToken)) = true := by
    decide +kernel
  obtain ⟨p₁, h₁, h⟩ := exists_run_of_play hplay
  simp only [Bool.and_eq_true] at h
  obtain ⟨⟨hversion, hnext⟩, h⟩ := h
  obtain ⟨p₂, h₂, h⟩ := exists_run_of_play h
  exact ⟨p₁, p₂, h₁, h₂, hversion, h, hnext⟩

theorem find_of_versionIs {s : World} {id v : Nat} (h : versionIs s id v = true) :
    ∃ u, s.users.find? id = some u ∧ u.sessionVersion = v := by
  obtain ⟨u, hu, h⟩ := (Option.any_eq_true ..).1 h
  exact ⟨u, hu, of_decide_eq_true h⟩

/-- The refresh that was overtaken had read the user before, and its pair carries version 0. -/
theorem revoked_version_rejected_overtaken :
    ∃ (p₁ p₂ : Platform) (reply : Reply), Run prog anyStep (idle signedIn) p₁ ∧
      Run prog anyStep p₁ p₂ ∧ Accepts p₂ 0 reply firstToken .refresh ∧
        FoundCurrent p₁ 0 firstToken ∧ reply.Carries (some 0) := by
  obtain ⟨p₁, p₂, h₁, h₂, hversion, hexchanged, -⟩ := overtaken
  obtain ⟨u₁, hu₁, hv⟩ := find_of_versionIs hversion
  obtain ⟨reply, hreply⟩ := accepts_of_exchangedAt hexchanged
  obtain ⟨hfound, hcarries⟩ := (revoked_version_rejected h₁ h₂).2 0 reply firstToken .refresh hreply
    (.inr rfl) u₁ 0 hu₁ rfl (by omega)
  exact ⟨p₁, p₂, reply, h₁, h₂, hreply, hfound, hcarries rfl⟩

/-- A call that had not returned when the version moved on may still accept the older one. -/
theorem not_rejected_at_once :
    ¬ ∀ (s₀ : World) (p₁ p₂ : Platform), Run prog anyStep (idle s₀) p₁ → Run prog anyStep p₁ p₂ →
      ∀ i reply token kind, Accepts p₂ i reply token kind → ¬ Accepts p₁ i reply token kind →
        kind.Versioned → ∀ u₁ v, p₁.db.users.find? token.payload.sub = some u₁ →
          token.payload.sessionVersion = some v → ¬ v < u₁.sessionVersion := by
  intro h
  obtain ⟨p₁, p₂, h₁, h₂, hversion, hexchanged, hnext⟩ := overtaken
  obtain ⟨u₁, hu₁, hv⟩ := find_of_versionIs hversion
  obtain ⟨reply, hreply⟩ := accepts_of_exchangedAt hexchanged
  refine h signedIn p₁ p₂ h₁ h₂ 0 reply firstToken .refresh hreply ?_ (.inr rfl) u₁ 0 hu₁ rfl
    (by omega)
  -- The call has a statement left to send at `p₁`, so it has not returned.
  rintro ⟨t, ht, hrest, -⟩
  simp [ht, Thread.next?, hrest] at hnext

end GetPlatform.Auth
