import GetPlatform.Auth.Browser

set_option autoImplicit false

/-! # An honest browser and the detection of reuse

A tab sends one refresh at a time, but the other tabs hold the same cookie, and a refresh whose response
was lost leaves the old token in it. The backend takes the second exchange of a token for a theft. Where
no refresh comes to its exchange with a token that was exchanged, none is taken for one. -/

namespace GetPlatform.Auth

open Pool Prog

namespace System

/-! ## The laws of a run -/

/-- Nobody else refreshes with a token of the user, or ends the user's sessions. -/
def Alone (userId : Id) (_ : System) : Act → Prop
  | .backend (.spawn o) => o.closesFor userId = false
  | _ => True

instance (userId : Id) (s : System) (a : Act) : Decidable (Alone userId s a) := by
  unfold Alone
  split <;> infer_instance

/-- A refresh of the browser that comes to its exchange is the first to exchange its token. -/
def FirstUse (s : System) : Act → Prop
  | .backend (.exec i _) => i ∈ s.browser.refreshes → ∀ t ∈ s.backend.threads[i]?,
      ∀ jti ∈ exchanging t, spent s.backend jti = false
  | _ => True

instance (s : System) (a : Act) : Decidable (FirstUse s a) := by
  unfold FirstUse
  split <;> infer_instance

/-- No refresh of the browser has come to the branch for a token that is reused. -/
def NoReplay (s : System) : Prop :=
  ∀ i ∈ s.browser.refreshes, ∀ t ∈ s.backend.threads[i]?, ¬ Replays t.trace.done

/-- The browser holds a refresh token that a chain accepts. -/
structure SignedIn (s₀ : World) (refreshToken : Token) : Prop where
  chains : Chains s₀
  live : ∃ jti, refreshToken.payload.jti = some jti ∧ Live s₀ refreshToken.payload.sub jti

/-! ## The invariant -/

variable {s₀ : World} {userId : Id} {s s' : System}

/-- The refreshes for the user are those of the browser, and its cookie is one of the user's tokens. -/
structure Orderly (s₀ : World) (userId : Id) (s : System) : Prop where
  run : Run prog anyStep (idle s₀) s.backend
  sheltered : Sheltered s₀ userId s.backend
  cookie : ∀ token, s.browser.refreshToken = some token → Ours s₀ userId s.backend.db token
  calls : ∀ i ∈ s.browser.refreshes, ∃ t, s.backend.threads[i]? = some t ∧
    ∃ token, t.trace.op = .refreshTokens token ∧ token.payload.sub = userId
  owned : ∀ (i : Nat) (t : Thread interface Op Err Reply), s.backend.threads[i]? = some t →
    t.trace.op.closesFor userId = true → i ∈ s.browser.refreshes
  promises : ∀ tab ∈ s.browser.tabs, ∀ i, tab.refreshPromise = some (some i) →
    i ∈ s.browser.refreshes

/-- What the tab promises is a refresh of the browser. -/
def Backed (s : System) (tab : Tab) : Prop :=
  ∀ i, tab.refreshPromise = some (some i) → i ∈ s.browser.refreshes

theorem chains_of_orderly (hs₀ : Chains s₀) (h : Orderly s₀ userId s) : Chains s.backend.db :=
  (rotation_holds hs₀ h.run).2.db

theorem Orderly.setTab (h : Orderly s₀ userId s) {k : Nat} {tab : Tab} (htab : Backed s tab) :
    Orderly s₀ userId (s.setTab k tab) := by
  refine { h with promises := fun tab' htab' => ?_ }
  rcases List.mem_or_eq_of_mem_set htab' with hold | rfl
  · exact h.promises tab' hold
  · exact htab

theorem backed_blank (s : System) : Backed s .blank := by
  intro i hi
  cases hi

/-- Another call arrives, which ends no session of the user. -/
theorem Orderly.spawn_aside (hs₀ : Chains s₀) (h : Orderly s₀ userId s) {o : Op}
    (ho : o.closesFor userId = false) : Orderly s₀ userId (s.spawn o) := by
  have hstep : s.backend.step prog (.spawn o) = some (s.spawn o).backend := rfl
  refine ⟨.step h.run trivial hstep, ?_, h.cookie, fun i hi => ?_, fun i t ht hcloses => ?_, h.promises⟩
  · refine h.sheltered.step (chains_of_orderly hs₀ h) h.run (fun o' heq hcloses => ?_)
      (show Unspent userId s.backend (.spawn o) from trivial) hstep
    obtain rfl := Step.spawn.inj heq
    rw [ho] at hcloses
    cases hcloses
  · obtain ⟨t, ht, htoken⟩ := h.calls i hi
    have hlt := (List.getElem?_eq_some_iff.1 ht).1
    exact ⟨t, (List.getElem?_append_left hlt).trans ht, htoken⟩
  · rcases thread_append ht with rfl | ht
    · rw [Trace.start_op, ho] at hcloses
      cases hcloses
    · exact h.owned i t ht hcloses

theorem Orderly.fetch (hs₀ : Chains s₀) (h : Orderly s₀ userId s) (url : String) (retried : Bool) :
    Orderly s₀ userId (s.fetch url retried).1 := by
  unfold System.fetch
  split
  · exact h.spawn_aside hs₀ rfl
  · exact h

theorem refreshes_fetch (s : System) (url : String) (retried : Bool) :
    (s.fetch url retried).1.browser = s.browser := by
  unfold System.fetch
  split <;> rfl

theorem Orderly.resend (hs₀ : Chains s₀) (urls : List String) (h : Orderly s₀ userId s) :
    Orderly s₀ userId (s.resend urls).1 := by
  induction urls generalizing s with
  | nil => exact h
  | cons url urls ih => exact ih (h.fetch hs₀ url true)

/-- The browser posts a refresh with its cookie. -/
theorem Orderly.post (hs₀ : Chains s₀) (h : Orderly s₀ userId s) :
    Orderly s₀ userId s.post.1 ∧ (∀ i ∈ s.browser.refreshes, i ∈ s.post.1.browser.refreshes) ∧
      ∀ i, s.post.2 = some i → i ∈ s.post.1.browser.refreshes := by
  unfold System.post
  split
  · next token htoken =>
      have hours := h.cookie token htoken
      have hstep : s.backend.step prog (.spawn (.refreshTokens token)) =
          some (s.spawn (.refreshTokens token)).backend := rfl
      refine ⟨⟨.step h.run trivial hstep, ?_, h.cookie, fun i hi => ?_, fun i t ht hcloses => ?_,
        fun tab htab i hi => .tail _ (h.promises tab htab i hi)⟩, fun i hi => .tail _ hi,
        fun i hi => Option.some.inj hi ▸ .head _⟩
      · refine h.sheltered.step (chains_of_orderly hs₀ h) h.run (fun o heq _ => ?_)
          (show Unspent userId s.backend (.spawn _) from trivial) hstep
        obtain rfl := Step.spawn.inj heq
        exact ⟨token, rfl, hours⟩
      · rcases List.mem_cons.1 hi with rfl | hi
        · exact ⟨_, List.getElem?_concat_length .., token, rfl, hours.sub⟩
        · obtain ⟨t, ht, hcall⟩ := h.calls i hi
          have hlt := (List.getElem?_eq_some_iff.1 ht).1
          exact ⟨t, (List.getElem?_append_left hlt).trans ht, hcall⟩
      · by_cases hlt : i < s.backend.threads.length
        · exact .tail _ (h.owned i t ((List.getElem?_append_left hlt).symm.trans ht) hcloses)
        · have hlast := (List.getElem?_eq_some_iff.1 ht).1
          simp only [System.spawn, List.length_append, List.length_singleton] at hlast
          obtain rfl : i = s.backend.threads.length := by omega
          exact .head _
  · exact ⟨h, fun _ hi => hi, by simp⟩

theorem Orderly.interceptor (hs₀ : Chains s₀) (h : Orderly s₀ userId s) {k : Nat} {tab : Tab}
    (htab : Backed s tab) (r : Request) (status : Option Nat) :
    Orderly s₀ userId (s.interceptor k tab r status) := by
  unfold System.interceptor
  split
  · split
    · exact h.setTab (backed_blank s)
    · unfold System.refreshSession
      cases hpromise : tab.refreshPromise with
      | some promise => exact h.setTab fun i hi => htab i (hpromise.trans hi)
      | none =>
          obtain ⟨hpost, -, hmem⟩ := h.post hs₀
          exact hpost.setTab fun i hi => hmem i (Option.some.inj hi)
  · exact h.setTab htab

theorem Orderly.settle (hs₀ : Chains s₀) (h : Orderly s₀ userId s) (k : Nat) (tab : Tab)
    (refreshed : Bool) : Orderly s₀ userId (s.settle k tab refreshed) := by
  cases refreshed with
  | false => exact h.setTab (backed_blank s)
  | true =>
      refine (h.resend hs₀ tab.awaiting).setTab fun i hi => ?_
      cases hi

/-- The tokens that a refresh of the browser has handed out are the user's. -/
theorem Orderly.receive (hs₀ : Chains s₀) (h : Orderly s₀ userId s) {k : Nat} {tab : Tab}
    {promise : Option Nat} (hpromise : ∀ i, promise = some i → i ∈ s.browser.refreshes)
    (hs : s.receive k tab promise = some s') : Orderly s₀ userId s' := by
  cases promise with
  | none =>
      obtain rfl := Option.some.inj hs
      exact h.settle hs₀ k tab false
  | some i =>
      simp only [System.receive] at hs
      split at hs
      · next session hended =>
          obtain rfl := Option.some.inj hs
          refine Orderly.settle hs₀ ?_ k tab true
          refine { h with cookie := fun token' hcookie => ?_ }
          obtain rfl := Option.some.inj hcookie
          -- The call has opened the chain of the token that it handed out.
          obtain ⟨t, ht, token, hop, hsub⟩ := h.calls i (hpromise i rfl)
          have hrest : t.rest = some (.ret (.session session)) := by
            simp only [System.ended, ht, Option.bind_some] at hended
            split at hended <;> simp_all
          have hdelivers : Delivers t.trace (.session session) :=
            h.run.conforms prog_delivers i t ht _ hrest
          obtain ⟨hsame, jti, hjti, hopens⟩ := hdelivers token session hop rfl
          rw [hsub] at hsame hopens
          refine ⟨hsame, jti, hjti, fun hrotated => ?_, h.sheltered.opened i t ht jti hopens⟩
          exact not_drawn_before h.run ht (drawn_of_opens h.run ht hopens) (hs₀.rotated jti hrotated).1
      · obtain rfl := Option.some.inj hs
        exact h.settle hs₀ k tab false
      · cases hs

/-- A step of the backend that is not the arrival of a refresh for the user. -/
theorem Orderly.backend (hs₀ : Chains s₀) (h : Orderly s₀ userId s) {a : Step model Op}
    (halone : Alone userId s (.backend a)) (hfirst : FirstUse s (.backend a)) {p : Platform}
    (hs : s.backend.step prog a = some p) : Orderly s₀ userId { s with backend := p } := by
  have hc := chains_of_orderly hs₀ h
  have hspawn : ∀ o, a = .spawn o → o.closesFor userId = false := by
    rintro o rfl
    exact halone
  have hunspent : Unspent userId s.backend a := by
    cases a with
    | exec i c => exact fun t ht hcloses => hfirst (h.owned i t ht hcloses) t ht
    | _ => trivial
  refine ⟨.step h.run trivial hs, ?_, fun token hcookie => ?_, fun i hi => ?_, fun i t ht hcloses => ?_,
    h.promises⟩
  · refine h.sheltered.step hc h.run (fun o heq hcloses => ?_) hunspent hs
    rw [hspawn o heq] at hcloses
    cases hcloses
  · obtain ⟨hsub, jti, hjti, hstart, hkept⟩ := h.cookie token hcookie
    exact ⟨hsub, jti, hjti, hstart, h.sheltered.kept hc h.run hs hkept⟩
  · obtain ⟨t, ht, token, hop, hsub⟩ := h.calls i hi
    obtain ⟨t', ht', hop', -⟩ := (moves_of_step hs).keeps ht
    exact ⟨t', ht', token, hop'.trans hop, hsub⟩
  · rcases (taken_of_step hs).origin ht with ⟨t₀, ht₀, hop⟩ | ⟨o, rfl, rfl⟩
    · exact h.owned i t₀ ht₀ (hop ▸ hcloses)
    · rw [Trace.start_op, hspawn o rfl] at hcloses
      cases hcloses

/-- **Every act keeps the invariant.** -/
theorem Orderly.step (hs₀ : Chains s₀) (h : Orderly s₀ userId s) {a : Act}
    (halone : Alone userId s a) (hfirst : FirstUse s a) (hs : s.step a = some s') :
    Orderly s₀ userId s' := by
  have hbacked : ∀ {k : Nat} {tab : Tab}, s.browser.tabs[k]? = some tab → Backed s tab :=
    fun hk => h.promises _ (List.mem_of_getElem? hk)
  cases a with
  | backend a =>
      obtain ⟨p, hp, rfl⟩ := Option.map_eq_some_iff.1 hs
      exact h.backend hs₀ halone hfirst hp
  | openTab =>
      obtain rfl := Option.some.inj hs
      refine { h with promises := fun tab htab => ?_ }
      rcases List.mem_append.1 htab with hold | hnew
      · exact h.promises tab hold
      · exact List.mem_singleton.1 hnew ▸ backed_blank s
  | leave k =>
      obtain rfl := Option.some.inj hs
      exact h.setTab (backed_blank s)
  | expireAccess =>
      obtain rfl := Option.some.inj hs
      exact { h with }
  | expireRefresh =>
      obtain rfl := Option.some.inj hs
      exact { h with cookie := fun token hcookie => by cases hcookie }
  | request k url =>
      simp only [System.step] at hs
      split at hs
      · cases hs
      · next tab hk =>
          obtain rfl := Option.some.inj hs
          refine (h.fetch hs₀ url false).setTab fun i hi => ?_
          rw [refreshes_fetch]
          exact hbacked hk i hi
  | response k n status =>
      simp only [System.step] at hs
      split at hs
      · cases hs
      · next tab hk =>
          split at hs
          · cases hs
          · split at hs
            · obtain rfl := Option.some.inj hs
              refine Orderly.interceptor hs₀ h ?_ _ _
              exact fun i hi => hbacked hk i hi
            · cases hs
  | refreshed k =>
      simp only [System.step] at hs
      split at hs
      · cases hs
      · next tab hk =>
          obtain ⟨promise, hpromise, hs⟩ := Option.bind_eq_some_iff.1 hs
          exact h.receive hs₀ (fun i hi => hbacked hk i (hi ▸ hpromise)) hs
  | lost k =>
      simp only [System.step] at hs
      split at hs
      · cases hs
      · next tab hk =>
          obtain ⟨-, -, rfl⟩ := Option.map_eq_some_iff.1 hs
          exact h.settle hs₀ k tab false

theorem orderly_start {refreshToken : Token} (hs₀ : SignedIn s₀ refreshToken)
    (accessToken : Option Token) :
    Orderly s₀ refreshToken.payload.sub (start s₀ accessToken refreshToken) := by
  obtain ⟨hchains, jti, hjti, hlive⟩ := hs₀
  refine ⟨.refl, ⟨?_, ?_, ?_⟩, fun token hcookie => ?_, ?_, ?_, ?_⟩
  · simp [start, idle]
  · simp [start, idle]
  · simp [start, idle]
  · obtain rfl := Option.some.inj hcookie
    refine ⟨rfl, jti, hjti, fun hrotated => ?_, .inr hlive⟩
    obtain ⟨r, hr, -, hcurrent, -⟩ := hlive
    exact (hchains.rotated jti hrotated).2 r hr hcurrent
  · simp [start]
  · simp [start, idle]
  · simp [start]

theorem orderly_of_reaches {refreshToken : Token} (hs₀ : SignedIn s₀ refreshToken)
    {accessToken : Option Token}
    (hrun : Reaches (fun s a => Alone refreshToken.payload.sub s a ∧ FirstUse s a)
      (start s₀ accessToken refreshToken) s) : Orderly s₀ refreshToken.payload.sub s := by
  induction hrun with
  | refl => exact orderly_start hs₀ accessToken
  | step _ hR hs ih => exact ih.step hs₀.chains hR.1 hR.2 hs

theorem Orderly.no_replay (h : Orderly s₀ userId s) : NoReplay s := by
  intro i hi t ht
  obtain ⟨t', ht', token, hop, hsub⟩ := h.calls i hi
  obtain rfl := Option.some.inj (ht'.symm.trans ht)
  exact h.sheltered.found i t' ht' (by simp [hop, Op.closesFor, hsub])

/-- A refresh that is the second to exchange its token is taken for a theft. -/
theorem Orderly.replay (hs₀ : Chains s₀) (h : Orderly s₀ userId s) {a : Act}
    (hfirst : ¬ FirstUse s a) (hs : s.step a = some s') : ¬ NoReplay s' := by
  -- The act is the exchange of a refresh of the browser, with a `jti` that was exchanged.
  obtain ⟨i, c, rfl, hi, t, ht, jti, hjti, hspent⟩ : ∃ i c, a = .backend (.exec i c) ∧
      i ∈ s.browser.refreshes ∧ ∃ t, s.backend.threads[i]? = some t ∧
        ∃ jti, exchanging t = some jti ∧ spent s.backend jti = true := by
    unfold FirstUse at hfirst
    split at hfirst
    · next i c => simpa using hfirst
    · exact absurd trivial hfirst
  obtain ⟨userId', newJti, hnext⟩ : ∃ userId' newJti,
      t.next? = some (.refreshSessionUpdateMany userId' (some jti) newJti) := by
    unfold exchanging at hjti
    split at hjti
    · next userId' jti' newJti hnext => exact ⟨userId', newJti, by rw [hnext, hjti]⟩
    · cases hjti
  obtain ⟨htx, -⟩ := exchange_of_next h.run ht hnext
  obtain ⟨p, hp, rfl⟩ := Option.map_eq_some_iff.1 hs
  obtain ⟨-, hholds⟩ := rotation_holds hs₀ h.run
  have hrot : ∀ j, spent s.backend j = true → j ∈ s.backend.db.rotated := by
    intro j hj
    obtain ⟨u, hu, hex⟩ := spent_iff.1 hj
    obtain ⟨n, hn⟩ := List.mem_iff_getElem?.1 hu
    exact (hholds.thread n u hn).spent j hex
  intro hnone
  obtain ⟨u, out, hu, hout, -, -, rfl⟩ := step_exec hp
  obtain rfl := Option.some.inj (hu.symm.trans ht)
  obtain ⟨q, k, ids, hk, hids, rfl⟩ | ⟨iso, k, hk, -⟩ | ⟨k, hk, -⟩ | ⟨k, hk, -⟩ := exec_cases hout
  · obtain rfl := Option.some.inj ((next_of_call hk).symm.trans hnext)
    rw [Trace.view_of_none htx] at hids
    obtain rfl := refused_of_spent (c := c) hholds.db hrot hspent hids
    refine hnone i hi _ (List.getElem?_set_self (List.getElem?_eq_some_iff.1 ht).1) ?_
    refine ⟨⟨.refreshSessionUpdateMany userId' (some jti) newJti, []⟩, ?_, rfl⟩
    simp [Trace.push_of_none htx]
  all_goals simp [Thread.next?, hk] at hnext

/-- **When an honest browser is taken for a thief.** Take a browser whose cookie holds a refresh token
    that a chain accepts, and a run in which nobody else ends the user's sessions. If each refresh of the
    browser that has come to its exchange was the first to exchange its token, then none has come to the
    branch that revokes the sessions; and one that is not the first comes to it. -/
theorem honest_browser {refreshToken : Token} (hs₀ : SignedIn s₀ refreshToken)
    {accessToken : Option Token}
    (hrun : Reaches (fun s a => Alone refreshToken.payload.sub s a ∧ FirstUse s a)
      (start s₀ accessToken refreshToken) s) :
    NoReplay s ∧ ∀ a s', s.step a = some s' → ¬ FirstUse s a → ¬ NoReplay s' := by
  have horderly := orderly_of_reaches hs₀ hrun
  exact ⟨horderly.no_replay, fun a s' hs hfirst => horderly.replay hs₀.chains hfirst hs⟩

/-! ### Two tabs -/

theorem signedIn_first : SignedIn signedIn firstToken :=
  ⟨chains_signedIn, 7, rfl, ⟨5, 1, 7, none⟩, List.mem_singleton_self _, rfl, rfl, rfl⟩

/-- In tab `k` a request is turned away, since the access cookie has expired. -/
def turnedAway (k : Nat) : List Act := [.request k "/notifications", .response k 0 (some 401)]

/-- The refresh with `token` at place `i` runs to its end, and draws `newJti`. -/
def refreshActs (i newJti : Nat) : List Act :=
  (commands i 2 ++ refreshFinish i newJti).map .backend

/-- The refresh at place `i`, up to where its exchange is answered. -/
def exchangeActs (i newJti : Nat) : List Act :=
  (commands i 2 ++ .exec i (.nat newJti) :: commands i 1).map .backend

/-- Has a refresh of the browser come to the branch for a token that is reused? -/
def sawReplay (s : System) : Bool :=
  s.browser.refreshes.any fun i =>
    (s.backend.threads[i]?).any fun t => t.trace.done.any refused

theorem noReplay_iff {s : System} : NoReplay s ↔ sawReplay s = false := by
  simp only [NoReplay, sawReplay, Replays, List.any_eq_false, Option.any_eq_true, not_exists, not_and,
    List.any_eq_true, Option.mem_def, Bool.not_eq_true]

/-- The second tab comes to it after the first one has its response: each refresh is the first to
    exchange its token. -/
theorem honest_browser_in_turn : ∃ s, Reaches (fun s a => Alone 1 s a ∧ FirstUse s a)
    (start signedIn none firstToken) s ∧ s.browser.refreshes = [2, 0] ∧ NoReplay s := by
  have hplay : ((start signedIn none firstToken).play (fun s a => Alone 1 s a ∧ FirstUse s a)
      ([.openTab, .openTab] ++ turnedAway 0 ++ refreshActs 0 8 ++ [.refreshed 0, .expireAccess] ++
        turnedAway 1 ++ refreshActs 2 9)).any (fun s => s.browser.refreshes = [2, 0]) = true := by
    decide +kernel
  obtain ⟨s, hrun, hend⟩ := reaches_of_play hplay
  exact ⟨s, hrun, of_decide_eq_true hend, (honest_browser signedIn_first hrun).1⟩

/-- Both tabs are turned away, and the second one refreshes with the cookie that the first one has
    used. -/
theorem not_honest_browser :
    ¬ ∀ (s₀ : World) (accessToken : Option Token) (refreshToken : Token) (s : System),
      SignedIn s₀ refreshToken → Reaches (Alone refreshToken.payload.sub)
        (start s₀ accessToken refreshToken) s → NoReplay s := by
  intro hall
  have hplay : ((start signedIn none firstToken).play (Alone 1)
      ([.openTab, .openTab] ++ turnedAway 0 ++ turnedAway 1 ++ refreshActs 0 8 ++
        exchangeActs 1 9)).any sawReplay = true := by
    decide +kernel
  obtain ⟨s, hrun, hend⟩ := reaches_of_play hplay
  rw [noReplay_iff.1 (hall signedIn none firstToken s signedIn_first hrun)] at hend
  cases hend

end System

end GetPlatform.Auth
