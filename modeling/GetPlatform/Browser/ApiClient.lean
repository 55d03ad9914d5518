import GetPlatform.Auth.Browser
import GetPlatform.Order.Execution

set_option autoImplicit false

/-! # Requests of one tab

`apiClient` with its response interceptor and `refreshSession`, in one tab. Requests are made at any time, and
answered in any order. A call that is refused waits for the refresh of the session, which is a call of the same
client, and is then sent once more. -/

namespace GetPlatform.Browser

open Auth (isAuthEndpoint)

def MFA_REQUIRED_MARKER : String := "authentification à deux facteurs (MFA) est obligatoire"

/-- What a request is sent with again. -/
structure Config where
  url : String
  retriedAfterRefresh : Bool
  deriving DecidableEq

/-- The promise of a call: its request is on the way, or it awaits the refresh that another call is, or it has
    settled. -/
inductive Phase where
  | inFlight
  | awaiting (refresh : Nat)
  | settled (fulfilled : Bool)
  deriving DecidableEq

def Phase.outcome : Phase → Option Bool
  | .settled fulfilled => some fulfilled
  | _ => none

structure Call where
  config : Config
  /-- How often the request was sent. -/
  sent : Nat
  phase : Phase
  deriving DecidableEq

structure Tab where
  calls : List Call
  refreshPromise : Option Nat
  /-- `window.location.href` was set to the login page. -/
  redirected : Bool
  mfaWarningShown : Bool
  deriving DecidableEq

def Tab.blank : Tab := ⟨[], none, false, false⟩

/-- What comes back: the status of the response with the message in it, or no response. -/
structure Answer where
  status : Option Nat
  message : Option String
  deriving DecidableEq

/-- `validateStatus` -/
def Answer.fulfilled (answer : Answer) : Bool := answer.status.any fun status => 200 ≤ status ∧ status < 300

def REFRESH : String := "/auth/refresh"

/-- A request that was just sent. -/
def Call.first (url : String) : Call := ⟨⟨url, false⟩, 1, .inFlight⟩

namespace Tab

def request (t : Tab) (url : String) : Tab := { t with calls := t.calls ++ [.first url] }

def put (t : Tab) (i : Nat) (c : Call) : Tab := { t with calls := t.calls.set i c }

/-- The call that refreshes the session, which is a new one if there is none. -/
def refreshSession (t : Tab) : Tab × Nat :=
  match t.refreshPromise with
  | some refresh => (t, refresh)
  | none => ({ t.request REFRESH with refreshPromise := some t.calls.length }, t.calls.length)

def redirect (t : Tab) : Tab := { t with redirected := true }

/-- The warning of a missing second factor, once. -/
def warn (t : Tab) (answer : Answer) : Tab :=
  if answer.status = some 403 ∧
      (answer.message.any fun message => MFA_REQUIRED_MARKER.toList <:+: message.toList) ∧ ¬ t.mfaWarningShown then
    { t with mfaWarningShown := true }
  else t

/-- The response interceptor, up to its `await`. -/
def interceptor (t : Tab) (i : Nat) (c : Call) (answer : Answer) : Tab :=
  if answer.fulfilled then t.put i { c with phase := .settled true }
  else if answer.status = some 401 ∧ ¬ isAuthEndpoint c.config.url then
    if ¬ c.config.retriedAfterRefresh then
      let (t, refresh) := t.refreshSession
      t.put i { c with config.retriedAfterRefresh := true, phase := .awaiting refresh }
    else (t.redirect.warn answer).put i { c with phase := .settled false }
  else (t.warn answer).put i { c with phase := .settled false }

/-- The response interceptor after its `await`: the request is sent again, or the page is left. -/
def resume (t : Tab) (i : Nat) (c : Call) (refreshed : Bool) : Tab :=
  if refreshed then t.put i { c with sent := c.sent + 1, phase := .inFlight }
  else t.redirect.put i { c with phase := .settled false }

/-- How the promise of the call at a place has settled, if it has. -/
def outcome (t : Tab) (i : Nat) : Option Bool := (t.calls[i]?).bind (·.phase.outcome)

end Tab

/-- A page makes a request, a request is answered, the `finally` of `refreshSession` runs, or the interceptor of a
    call goes on after its `await`. -/
inductive Step where
  | request (url : String)
  | answer (i : Nat) (answer : Answer)
  | clear
  | resume (i : Nat)
  deriving DecidableEq

/-- Nothing but `refreshSession` requests `/auth/refresh`. What awaits `refreshPromise` goes on after its
    `finally`. -/
def Tab.step (t : Tab) : Step → Option Tab
  | .request url => if url = REFRESH then none else some (t.request url)
  | .answer i answer =>
      match t.calls[i]? with
      | some c => if c.phase = .inFlight then some (t.interceptor i c answer) else none
      | none => none
  | .clear =>
      match t.refreshPromise with
      | some refresh => (t.outcome refresh).map fun _ => { t with refreshPromise := none }
      | none => none
  | .resume i =>
      match t.calls[i]? with
      | some c =>
          match c.phase with
          | .awaiting refresh =>
              if t.refreshPromise = some refresh then none else (t.outcome refresh).map (t.resume i c)
          | _ => none
      | none => none

/-! ## What a step can do -/

/-- The calls and `refreshPromise` after a step. -/
inductive Taken (t t' : Tab) : Step → Prop
  /-- A page makes a request. -/
  | request (url : String) : url ≠ REFRESH → t'.calls = t.calls ++ [.first url] →
      t'.refreshPromise = t.refreshPromise → Taken t t' (.request url)
  /-- The call at a place settles. -/
  | settle {i : Nat} {c : Call} (answer : Answer) (fulfilled : Bool) : t.calls[i]? = some c → c.phase = .inFlight →
      t'.calls = t.calls.set i { c with phase := .settled fulfilled } → t'.refreshPromise = t.refreshPromise →
      Taken t t' (.answer i answer)
  /-- The call at a place is refused, and awaits the refresh. -/
  | await {i : Nat} {c : Call} (answer : Answer) : t.calls[i]? = some c → c.phase = .inFlight →
      answer.status = some 401 → isAuthEndpoint c.config.url = false → c.config.retriedAfterRefresh = false →
      t' = t.refreshSession.1.put i
        { c with config.retriedAfterRefresh := true, phase := .awaiting t.refreshSession.2 } →
      Taken t t' (.answer i answer)
  | clear {refresh : Nat} {fulfilled : Bool} : t.refreshPromise = some refresh →
      t.outcome refresh = some fulfilled → t'.calls = t.calls → t'.refreshPromise = none → Taken t t' .clear
  /-- The refresh has succeeded, and the request is sent again. -/
  | resend {i refresh : Nat} {c : Call} : t.calls[i]? = some c → c.phase = .awaiting refresh →
      t.outcome refresh = some true → t'.calls = t.calls.set i { c with sent := c.sent + 1, phase := .inFlight } →
      t'.refreshPromise = t.refreshPromise → Taken t t' (.resume i)
  /-- The refresh has failed, and the page is left. -/
  | leave {i refresh : Nat} {c : Call} : t.calls[i]? = some c → c.phase = .awaiting refresh →
      t.outcome refresh = some false → t'.calls = t.calls.set i { c with phase := .settled false } →
      t'.refreshPromise = t.refreshPromise → Taken t t' (.resume i)

@[simp] theorem calls_warn (t : Tab) (answer : Answer) : (t.warn answer).calls = t.calls := by
  unfold Tab.warn
  split <;> rfl

@[simp] theorem refreshPromise_warn (t : Tab) (answer : Answer) :
    (t.warn answer).refreshPromise = t.refreshPromise := by
  unfold Tab.warn
  split <;> rfl

theorem taken_interceptor {t : Tab} {i : Nat} {c : Call} (hc : t.calls[i]? = some c) (hphase : c.phase = .inFlight)
    (answer : Answer) : Taken t (t.interceptor i c answer) (.answer i answer) := by
  unfold Tab.interceptor
  split
  · exact .settle answer true hc hphase rfl rfl
  · split
    · next h401 =>
        split
        · next hfirst =>
            exact .await answer hc hphase h401.1 (by simpa using h401.2) (by simpa using hfirst) rfl
        · exact .settle answer false hc hphase (by simp [Tab.put, Tab.redirect]) (by simp [Tab.put, Tab.redirect])
    · exact .settle answer false hc hphase (by simp [Tab.put]) (by simp [Tab.put])

theorem taken_of_step {t t' : Tab} {a : Step} (h : t.step a = some t') : Taken t t' a := by
  cases a with
  | request url =>
      simp only [Tab.step, Option.ite_none_left_eq_some, Option.some.injEq] at h
      obtain ⟨hurl, rfl⟩ := h
      exact .request url hurl rfl rfl
  | answer i answer =>
      simp only [Tab.step] at h
      split at h
      · next c hc =>
          simp only [Option.ite_none_right_eq_some, Option.some.injEq] at h
          obtain ⟨hphase, rfl⟩ := h
          exact taken_interceptor hc hphase answer
      · cases h
  | clear =>
      simp only [Tab.step] at h
      split at h
      · next refresh hrefresh =>
          obtain ⟨fulfilled, houtcome, rfl⟩ := Option.map_eq_some_iff.1 h
          exact .clear hrefresh houtcome rfl rfl
      · cases h
  | resume i =>
      simp only [Tab.step] at h
      split at h
      · next c hc =>
          split at h
          · next refresh hphase =>
              simp only [Option.ite_none_left_eq_some] at h
              obtain ⟨refreshed, houtcome, rfl⟩ := Option.map_eq_some_iff.1 h.2
              cases refreshed with
              | true => exact .resend hc hphase houtcome rfl rfl
              | false => exact .leave hc hphase houtcome rfl rfl
          · cases h
      · cases h

/-! ## The invariant -/

/-- A call is sent once, and once more after it has awaited a refresh. -/
structure Call.Once (c : Call) : Prop where
  most : c.sent ≤ 2
  first : c.config.retriedAfterRefresh = false → c.sent = 1 ∧ ∀ refresh, c.phase ≠ .awaiting refresh
  waits : ∀ refresh, c.phase = .awaiting refresh → c.sent = 1
  refresh : c.config.url = REFRESH → c.config.retriedAfterRefresh = false

theorem once_first (url : String) : (Call.first url).Once :=
  ⟨by simp [Call.first], by simp [Call.first], by simp [Call.first], fun _ => rfl⟩

theorem Call.Once.settle {c : Call} (h : c.Once) (fulfilled : Bool) :
    ({ c with phase := .settled fulfilled } : Call).Once :=
  ⟨h.most, fun hfirst => ⟨(h.first hfirst).1, by simp⟩, by simp, h.refresh⟩

theorem Call.Once.await {c : Call} (h : c.Once) (hfirst : c.config.retriedAfterRefresh = false)
    (hurl : c.config.url ≠ REFRESH) (refresh : Nat) :
    ({ c with config.retriedAfterRefresh := true, phase := .awaiting refresh } : Call).Once :=
  ⟨h.most, by simp, fun _ _ => (h.first hfirst).1, fun heq => absurd heq hurl⟩

/-- A call that awaits a refresh is none. -/
theorem Call.Once.not_refresh {c : Call} (h : c.Once) {refresh : Nat} (hphase : c.phase = .awaiting refresh) :
    c.config.url ≠ REFRESH :=
  fun heq => (h.first (h.refresh heq)).2 refresh hphase

theorem Call.Once.resend {c : Call} (h : c.Once) {refresh : Nat} (hphase : c.phase = .awaiting refresh) :
    ({ c with sent := c.sent + 1, phase := .inFlight } : Call).Once := by
  have hsent := h.waits refresh hphase
  refine ⟨by simp [hsent], fun hfirst => ?_, by simp, h.refresh⟩
  exact absurd hphase ((h.first hfirst).2 refresh)

/-- The call at this place refreshes the session. -/
def Tab.Refreshes (t : Tab) (i : Nat) : Prop := ∃ c, t.calls[i]? = some c ∧ c.config.url = REFRESH

/-- A refresh on the way is the one that is shared. -/
structure Tab.Sane (t : Tab) : Prop where
  once : ∀ c ∈ t.calls, c.Once
  promise : ∀ refresh, t.refreshPromise = some refresh → t.Refreshes refresh
  inFlight : ∀ i c, t.calls[i]? = some c → c.config.url = REFRESH → c.phase = .inFlight → t.refreshPromise = some i
  awaits : ∀ c ∈ t.calls, ∀ refresh, c.phase = .awaiting refresh → t.Refreshes refresh

theorem sane_blank : Tab.blank.Sane := ⟨by simp [Tab.blank], by simp [Tab.blank], by simp [Tab.blank], by simp [Tab.blank]⟩

/-- The calls are those there were, and a new one. -/
theorem get_append {t t' : Tab} {c : Call} (h : t'.calls = t.calls ++ [c]) {i : Nat} {d : Call} :
    t'.calls[i]? = some d ↔ t.calls[i]? = some d ∨ i = t.calls.length ∧ c = d := by
  rw [h]
  rcases Nat.lt_trichotomy i t.calls.length with hlt | rfl | hgt
  · rw [List.getElem?_append_left hlt]
    exact ⟨.inl, fun h => h.elim id fun h => absurd h.1 (by omega)⟩
  · rw [List.getElem?_concat_length]
    simp
  · rw [List.getElem?_eq_none (by simpa using by omega), List.getElem?_eq_none (by omega)]
    simp
    omega

/-- The calls are those there were, but the one at place `i`. -/
theorem get_set {t t' : Tab} {i : Nat} {c c' : Call} (hc : t.calls[i]? = some c)
    (h : t'.calls = t.calls.set i c') {j : Nat} {d : Call} :
    t'.calls[j]? = some d ↔ j = i ∧ c' = d ∨ j ≠ i ∧ t.calls[j]? = some d := by
  rw [h]
  by_cases hj : j = i
  · subst hj
    rw [List.getElem?_set_self (List.getElem?_eq_some_iff.1 hc).1]
    simp
  · rw [List.getElem?_set_ne (Ne.symm hj)]
    simp [hj]

theorem Tab.Refreshes.append {t t' : Tab} {c : Call} (h : t'.calls = t.calls ++ [c]) {i : Nat}
    (hi : t.Refreshes i) : t'.Refreshes i := by
  obtain ⟨d, hd, hurl⟩ := hi
  exact ⟨d, (get_append h).2 (.inl hd), hurl⟩

theorem Tab.Refreshes.set {t t' : Tab} {i : Nat} {c c' : Call} (hc : t.calls[i]? = some c)
    (h : t'.calls = t.calls.set i c') (hurl : c'.config.url = c.config.url) {j : Nat} (hj : t.Refreshes j) :
    t'.Refreshes j := by
  obtain ⟨d, hd, hrefresh⟩ := hj
  by_cases hij : j = i
  · subst hij
    obtain rfl := Option.some.inj (hc.symm.trans hd)
    exact ⟨c', (get_set hc h).2 (.inl ⟨rfl, rfl⟩), hurl.trans hrefresh⟩
  · exact ⟨d, (get_set hc h).2 (.inr ⟨hij, hd⟩), hrefresh⟩

/-- One call has changed. -/
theorem Tab.Sane.set {t t' : Tab} (h : t.Sane) {i : Nat} {c c' : Call} (hc : t.calls[i]? = some c)
    (hcalls : t'.calls = t.calls.set i c') (hpromise : t'.refreshPromise = t.refreshPromise)
    (hurl : c'.config.url = c.config.url) (honce : c'.Once) (hrefresh : c'.config.url = REFRESH → c'.phase ≠ .inFlight)
    (hawaits : ∀ refresh, c'.phase = .awaiting refresh → t.Refreshes refresh) : t'.Sane := by
  have hmem : ∀ d ∈ t'.calls, d = c' ∨ d ∈ t.calls := by
    intro d hd
    rw [hcalls] at hd
    exact (List.mem_or_eq_of_mem_set hd).symm
  refine ⟨fun d hd => ?_, fun refresh hr => ?_, fun j d hd hdurl hphase => ?_, fun d hd refresh hphase => ?_⟩
  · rcases hmem d hd with rfl | hd
    · exact honce
    · exact h.once d hd
  · exact (h.promise refresh (hpromise.symm.trans hr)).set hc hcalls hurl
  · rw [hpromise]
    rcases (get_set hc hcalls).1 hd with ⟨-, rfl⟩ | ⟨-, hd⟩
    · exact absurd hphase (hrefresh hdurl)
    · exact h.inFlight j d hd hdurl hphase
  · rcases hmem d hd with rfl | hd
    · exact (hawaits refresh hphase).set hc hcalls hurl
    · exact (h.awaits d hd refresh hphase).set hc hcalls hurl

/-- The shared refresh is there afterwards. -/
theorem Tab.Sane.refreshSession {t : Tab} (h : t.Sane) :
    t.refreshSession.1.Sane ∧ t.refreshSession.1.Refreshes t.refreshSession.2 := by
  unfold Tab.refreshSession
  split
  · next refresh hrefresh => exact ⟨h, h.promise refresh hrefresh⟩
  · next hnone =>
      have hcalls : ({ t.request REFRESH with refreshPromise := some t.calls.length } : Tab).calls =
          t.calls ++ [.first REFRESH] := rfl
      have hnew : ({ t.request REFRESH with refreshPromise := some t.calls.length } : Tab).Refreshes t.calls.length :=
        ⟨.first REFRESH, (get_append hcalls).2 (.inr ⟨rfl, rfl⟩), rfl⟩
      refine ⟨⟨fun d hd => ?_, fun refresh hr => ?_, fun i d hd hurl hphase => ?_, fun d hd refresh hphase => ?_⟩, hnew⟩
      · rcases List.mem_append.1 hd with hd | hd
        · exact h.once d hd
        · exact List.mem_singleton.1 hd ▸ once_first REFRESH
      · exact Option.some.inj hr ▸ hnew
      · rcases (get_append hcalls).1 hd with hd | ⟨rfl, -⟩
        · -- There was no refresh on the way.
          have := h.inFlight i d hd hurl hphase
          rw [hnone] at this
          cases this
        · rfl
      · rcases List.mem_append.1 hd with hd | hd
        · exact (h.awaits d hd refresh hphase).append hcalls
        · rw [List.mem_singleton.1 hd] at hphase
          cases hphase

theorem isAuthEndpoint_refresh : isAuthEndpoint REFRESH = true := by decide +kernel

theorem ne_refresh_of_not_auth {url : String} (h : isAuthEndpoint url = false) : url ≠ REFRESH := by
  rintro rfl
  rw [isAuthEndpoint_refresh] at h
  cases h

/-- What `refreshSession` leaves of the calls. -/
theorem get_refreshSession {t : Tab} {i : Nat} {c : Call} (h : t.calls[i]? = some c) :
    t.refreshSession.1.calls[i]? = some c := by
  unfold Tab.refreshSession
  split
  · exact h
  · exact (get_append (c := .first REFRESH) rfl).2 (.inl h)

theorem outcome_eq {t : Tab} {i : Nat} {fulfilled : Bool} (h : t.outcome i = some fulfilled) :
    ∃ c, t.calls[i]? = some c ∧ c.phase = .settled fulfilled := by
  obtain ⟨c, hc, hphase⟩ := Option.bind_eq_some_iff.1 h
  refine ⟨c, hc, ?_⟩
  cases hp : c.phase with
  | settled b =>
      rw [hp] at hphase
      rw [Option.some.inj hphase]
  | _ => simp [hp, Phase.outcome] at hphase

theorem Tab.Sane.step {t t' : Tab} (h : t.Sane) {a : Step} (hstep : t.step a = some t') : t'.Sane := by
  cases taken_of_step hstep with
  | request url hurl hcalls hpromise =>
      refine ⟨fun c hc => ?_, fun refresh hr => ?_, fun i c hc hrefresh hphase => ?_, fun c hc refresh hphase => ?_⟩
      · rw [hcalls, List.mem_append, List.mem_singleton] at hc
        rcases hc with hc | rfl
        · exact h.once c hc
        · exact once_first url
      · exact (h.promise refresh (hpromise.symm.trans hr)).append hcalls
      · rw [hpromise]
        rcases (get_append hcalls).1 hc with hc | ⟨-, rfl⟩
        · exact h.inFlight i c hc hrefresh hphase
        · exact absurd hrefresh hurl
      · rw [hcalls, List.mem_append, List.mem_singleton] at hc
        rcases hc with hc | rfl
        · exact (h.awaits c hc refresh hphase).append hcalls
        · cases hphase
  | settle answer fulfilled hc hphase hcalls hpromise =>
      exact h.set hc hcalls hpromise rfl ((h.once _ (List.mem_of_getElem? hc)).settle fulfilled) (by simp) (by simp)
  | await answer hc hphase h401 hauth hfirst heq =>
      have hurl := ne_refresh_of_not_auth hauth
      obtain ⟨hsane, hrefreshes⟩ := h.refreshSession
      subst heq
      refine hsane.set (get_refreshSession hc) rfl rfl rfl
        ((h.once _ (List.mem_of_getElem? hc)).await hfirst hurl _) (by simp) fun refresh hphase' => ?_
      obtain rfl := Phase.awaiting.inj hphase'
      exact hrefreshes
  | @clear refresh fulfilled hpromise houtcome hcalls hnone =>
      refine ⟨hcalls ▸ h.once, fun r hr => ?_, fun i c hc hrefresh hphase => ?_, fun c hc r hphase => ?_⟩
      · rw [hnone] at hr
        cases hr
      · -- The refresh that was shared has settled.
        rw [hcalls] at hc
        obtain rfl := Option.some.inj (hpromise.symm.trans (h.inFlight i c hc hrefresh hphase))
        obtain ⟨d, hd, hsettled⟩ := outcome_eq houtcome
        obtain rfl := Option.some.inj (hc.symm.trans hd)
        rw [hphase] at hsettled
        cases hsettled
      · rw [hcalls] at hc
        unfold Tab.Refreshes
        rw [hcalls]
        exact h.awaits c hc r hphase
  | resend hc hphase houtcome hcalls hpromise =>
      have honce := h.once _ (List.mem_of_getElem? hc)
      exact h.set hc hcalls hpromise rfl (honce.resend hphase)
        (fun hrefresh => absurd hrefresh (honce.not_refresh hphase)) (by simp)
  | leave hc hphase houtcome hcalls hpromise =>
      exact h.set hc hcalls hpromise rfl ((h.once _ (List.mem_of_getElem? hc)).settle false) (by simp) (by simp)

/-! ## Safety -/

/-- One refresh is on the way at most, and no request was sent more than twice. -/
structure Tab.RetriesOnce (t : Tab) : Prop where
  oneRefresh : ∀ (i j : Nat) (c d : Call), t.calls[i]? = some c → t.calls[j]? = some d → c.config.url = REFRESH →
    d.config.url = REFRESH → c.phase = .inFlight → d.phase = .inFlight → i = j
  twice : ∀ c ∈ t.calls, c.sent ≤ 2

theorem Tab.Sane.retriesOnce {t : Tab} (h : t.Sane) : t.RetriesOnce := by
  refine ⟨fun i j c d hc hd hcurl hdurl hcphase hdphase => ?_, fun c hc => (h.once c hc).most⟩
  have hi := h.inFlight i c hc hcurl hcphase
  have hj := h.inFlight j d hd hdurl hdphase
  exact Option.some.inj (hi.symm.trans hj)

/-- A step sends a request again after its refresh has succeeded only, and refreshes the session only where a
    request was refused that had been sent once and is no refresh itself. -/
structure Careful (t t' : Tab) (a : Step) : Prop where
  resent : ∀ (i : Nat) (c c' : Call), t.calls[i]? = some c → t'.calls[i]? = some c' → c'.sent ≠ c.sent →
    ∃ refresh, t.Refreshes refresh ∧ c.phase = .awaiting refresh ∧ t.outcome refresh = some true
  refreshed : ∀ j, t'.Refreshes j → ¬ t.Refreshes j → ∃ (i : Nat) (answer : Answer) (c : Call), a = .answer i answer ∧ answer.status = some 401 ∧
    t.calls[i]? = some c ∧ c.sent = 1 ∧ c.config.url ≠ REFRESH

/-- One call has changed: whether it was sent again, and no refresh is new. -/
theorem careful_set {t t' : Tab} {a : Step} {i : Nat} {c c' : Call} (hc : t.calls[i]? = some c)
    (hcalls : t'.calls = t.calls.set i c') (hurl : c'.config.url = c.config.url)
    (hsent : c'.sent ≠ c.sent →
      ∃ refresh, t.Refreshes refresh ∧ c.phase = .awaiting refresh ∧ t.outcome refresh = some true) :
    Careful t t' a := by
  refine ⟨fun j d d' hd hd' hne => ?_, fun j hj hnot => absurd ?_ hnot⟩
  · rcases (get_set hc hcalls).1 hd' with ⟨rfl, rfl⟩ | ⟨-, hold⟩
    · obtain rfl := Option.some.inj (hc.symm.trans hd)
      exact hsent hne
    · exact absurd (Option.some.inj (hold.symm.trans hd) ▸ rfl) hne
  · obtain ⟨d, hd, hdurl⟩ := hj
    rcases (get_set hc hcalls).1 hd with ⟨rfl, rfl⟩ | ⟨-, hold⟩
    · exact ⟨c, hc, hurl.symm.trans hdurl⟩
    · exact ⟨d, hold, hdurl⟩

theorem careful_of_step {t t' : Tab} (h : t.Sane) {a : Step} (hstep : t.step a = some t') : Careful t t' a := by
  cases taken_of_step hstep with
  | request url hurl hcalls hpromise =>
      refine ⟨fun i c c' hc hc' hne => ?_, fun j hj hnot => ?_⟩
      · have := (get_append hcalls).2 (.inl hc)
        exact absurd (Option.some.inj (this.symm.trans hc') ▸ rfl) hne
      · obtain ⟨d, hd, hdurl⟩ := hj
        rcases (get_append hcalls).1 hd with hold | ⟨-, rfl⟩
        · exact absurd ⟨d, hold, hdurl⟩ hnot
        · exact absurd hdurl hurl
  | settle answer fulfilled hc hphase hcalls hpromise =>
      exact careful_set hc hcalls rfl fun hne => absurd rfl hne
  | @await i c answer hc hphase h401 hauth hfirst heq =>
      subst heq
      refine ⟨fun j d d' hd hd' hne => ?_, fun j hj hnot => ?_⟩
      · rcases (get_set (get_refreshSession hc) rfl).1 hd' with ⟨rfl, rfl⟩ | ⟨-, hold⟩
        · obtain rfl := Option.some.inj (hc.symm.trans hd)
          exact absurd rfl hne
        · exact absurd (Option.some.inj ((get_refreshSession hd).symm.trans hold) ▸ rfl) hne
      · exact ⟨i, answer, c, rfl, h401, hc, ((h.once c (List.mem_of_getElem? hc)).first hfirst).1,
          ne_refresh_of_not_auth hauth⟩
  | clear hpromise houtcome hcalls hnone =>
      refine ⟨fun i c c' hc hc' hne => ?_, fun j hj hnot => ?_⟩
      · rw [hcalls] at hc'
        exact absurd (Option.some.inj (hc.symm.trans hc') ▸ rfl) hne
      · unfold Tab.Refreshes at hj
        rw [hcalls] at hj
        exact absurd hj hnot
  | resend hc hphase houtcome hcalls hpromise =>
      exact careful_set hc hcalls rfl fun _ =>
        ⟨_, h.awaits _ (List.mem_of_getElem? hc) _ hphase, hphase, houtcome⟩
  | leave hc hphase houtcome hcalls hpromise => exact careful_set hc hcalls rfl fun hne => absurd rfl hne

/-! ## Liveness -/

namespace Tab

def InFlight (i : Nat) (t : Tab) : Prop := ∃ c, t.calls[i]? = some c ∧ c.phase = .inFlight

def Settled (i : Nat) (t : Tab) : Prop := ∃ fulfilled, t.outcome i = some fulfilled

/-- The shared refresh has settled, and its `finally` has not run. -/
def Clearing (t : Tab) : Prop := ∃ refresh, t.refreshPromise = some refresh ∧ t.Settled refresh

/-- What the call awaits has settled. -/
def Ready (i : Nat) (t : Tab) : Prop := ∃ c refresh, t.calls[i]? = some c ∧ c.phase = .awaiting refresh ∧
  t.refreshPromise ≠ some refresh ∧ t.Settled refresh

end Tab

/-- The network answers each request, and what has been settled runs on. -/
structure Fair (e : Execution Tab.step) : Prop where
  answered : ∀ i, e.FairTo (Tab.InFlight i) fun a => ∃ answer, a = .answer i answer
  cleared : e.FairTo Tab.Clearing fun a => a = .clear
  resumed : ∀ i, e.FairTo (Tab.Ready i) fun a => a = .resume i

/-- A call stays as it is until it is answered, or goes on after its `await`. -/
theorem get_of_taken {t t' : Tab} {a : Step} (h : Taken t t' a) {i : Nat} {c : Call} (hc : t.calls[i]? = some c)
    (hanswer : ∀ answer, a ≠ .answer i answer) (hresume : a ≠ .resume i) : t'.calls[i]? = some c := by
  cases h with
  | request url hurl hcalls hpromise => exact (get_append hcalls).2 (.inl hc)
  | settle answer fulfilled hd hphase hcalls hpromise =>
      exact (get_set hd hcalls).2 (.inr ⟨fun heq => hanswer answer (heq ▸ rfl), hc⟩)
  | await answer hd hphase h401 hauth hfirst heq =>
      subst heq
      exact (get_set (get_refreshSession hd) rfl).2
        (.inr ⟨fun heq => hanswer answer (heq ▸ rfl), get_refreshSession hc⟩)
  | clear hpromise houtcome hcalls hnone => rwa [hcalls]
  | resend hd hphase houtcome hcalls hpromise =>
      exact (get_set hd hcalls).2 (.inr ⟨fun heq => hresume (heq ▸ rfl), hc⟩)
  | leave hd hphase houtcome hcalls hpromise =>
      exact (get_set hd hcalls).2 (.inr ⟨fun heq => hresume (heq ▸ rfl), hc⟩)

/-- Only a request on the way is answered. -/
theorem inFlight_of_answer {t t' : Tab} {i : Nat} {answer : Answer} (h : Taken t t' (.answer i answer)) {c : Call}
    (hc : t.calls[i]? = some c) : c.phase = .inFlight := by
  cases h with
  | settle answer fulfilled hd hphase => exact Option.some.inj (hd.symm.trans hc) ▸ hphase
  | await answer hd hphase => exact Option.some.inj (hd.symm.trans hc) ▸ hphase

theorem awaiting_of_resume {t t' : Tab} {i : Nat} (h : Taken t t' (.resume i)) {c : Call}
    (hc : t.calls[i]? = some c) : ∃ refresh, c.phase = .awaiting refresh := by
  cases h with
  | resend hd hphase => exact Option.some.inj (hd.symm.trans hc) ▸ ⟨_, hphase⟩
  | leave hd hphase => exact Option.some.inj (hd.symm.trans hc) ▸ ⟨_, hphase⟩

/-- What has settled stays so. -/
theorem outcome_of_taken {t t' : Tab} {a : Step} (h : Taken t t' a) {i : Nat} {fulfilled : Bool}
    (hi : t.outcome i = some fulfilled) : t'.outcome i = some fulfilled := by
  obtain ⟨c, hc, hphase⟩ := outcome_eq hi
  have hc' : t'.calls[i]? = some c := by
    refine get_of_taken h hc (fun answer heq => ?_) fun heq => ?_
    · have := inFlight_of_answer (heq ▸ h) hc
      rw [hphase] at this
      cases this
    · obtain ⟨refresh, this⟩ := awaiting_of_resume (heq ▸ h) hc
      rw [hphase] at this
      cases this
  simp [Tab.outcome, hc', hphase, Phase.outcome]

variable {e : Execution Tab.step} {n i : Nat}

/-- A request that will not be sent again settles. -/
theorem settles_of_last (hfair : Fair e) {c : Call} (hc : (e.state n).calls[i]? = some c) (hphase : c.phase = .inFlight)
    (hlast : c.config.retriedAfterRefresh = true ∨ isAuthEndpoint c.config.url = true) :
    e.Eventually n (Tab.Settled i) := by
  refine (hfair.answered i).eventually (Q := fun t => t.calls[i]? = some c) (fun t ht => ⟨c, ht, hphase⟩)
    (fun t a t' ht hother hstep => ?_) (fun t a t' ht hanswer hstep => ?_) hc
  · refine get_of_taken (taken_of_step hstep) ht (fun answer heq => hother ⟨answer, heq⟩) fun heq => ?_
    obtain ⟨refresh, hawaiting⟩ := awaiting_of_resume (heq ▸ taken_of_step hstep) ht
    rw [hphase] at hawaiting
    cases hawaiting
  · obtain ⟨answer, rfl⟩ := hanswer
    cases taken_of_step hstep with
    | settle answer fulfilled hd _ hcalls hpromise =>
        refine ⟨fulfilled, ?_⟩
        have := (get_set hd hcalls).2 (.inl ⟨rfl, rfl⟩)
        simp [Tab.outcome, this, Phase.outcome]
    | await answer hd _ h401 hauth hfirst heq =>
        obtain rfl := Option.some.inj (ht.symm.trans hd)
        rcases hlast with hlast | hlast
        · rw [hlast] at hfirst
          cases hfirst
        · rw [hlast] at hauth
          cases hauth

/-- The call is on its last way, or it has settled. -/
def Tab.Last (i : Nat) (t : Tab) : Prop := t.Settled i ∨
  ∃ c, t.calls[i]? = some c ∧ c.phase = .inFlight ∧ c.config.retriedAfterRefresh = true

/-- The `finally` of a refresh that has settled runs. -/
theorem clears (hfair : Fair e) {refresh : Nat} (h : (e.state n).Settled refresh) :
    e.Eventually n fun t => t.refreshPromise ≠ some refresh ∧ t.Settled refresh := by
  by_cases hpromise : (e.state n).refreshPromise = some refresh
  · refine hfair.cleared.eventually (Q := fun t => t.refreshPromise = some refresh ∧ t.Settled refresh)
      (fun t ht => ⟨refresh, ht⟩) (fun t a t' ht hother hstep => ?_) (fun t a t' ht hclear hstep => ?_) ⟨hpromise, h⟩
    · obtain ⟨hpromise, fulfilled, houtcome⟩ := ht
      have htaken := taken_of_step hstep
      refine ⟨?_, fulfilled, outcome_of_taken htaken houtcome⟩
      cases htaken with
      | request url hurl hcalls hsame => exact hsame.trans hpromise
      | settle answer b hc hphase hcalls hsame => exact hsame.trans hpromise
      | await answer hc hphase h401 hauth hfirst heq =>
          subst heq
          simp [Tab.put, Tab.refreshSession, hpromise]
      | clear => exact absurd rfl hother
      | resend hc hphase hb hcalls hsame => exact hsame.trans hpromise
      | leave hc hphase hb hcalls hsame => exact hsame.trans hpromise
    · obtain ⟨-, fulfilled, houtcome⟩ := ht
      subst hclear
      have htaken := taken_of_step hstep
      refine ⟨?_, fulfilled, outcome_of_taken htaken houtcome⟩
      cases htaken with
      | clear hr hb hcalls hnone => simp [hnone]
  · exact .now ⟨hpromise, h⟩

/-- A refresh that is not the shared one is not shared again. -/
theorem unshared_of_taken {t t' : Tab} {a : Step} (h : Taken t t' a) {refresh : Nat}
    (hrefresh : t.Settled refresh) (hother : t.refreshPromise ≠ some refresh) : t'.refreshPromise ≠ some refresh := by
  cases h with
  | request url hurl hcalls hsame => rwa [hsame]
  | settle answer b hc hphase hcalls hsame => rwa [hsame]
  | await answer hc hphase h401 hauth hfirst heq =>
      obtain ⟨b, hb⟩ := hrefresh
      obtain ⟨d, hd, -⟩ := outcome_eq hb
      have hlt := (List.getElem?_eq_some_iff.1 hd).1
      subst heq
      simp only [Tab.put, Tab.refreshSession]
      split
      · exact hother
      · exact fun heq => absurd (Option.some.inj heq) (by omega)
  | clear hr hb hcalls hnone => simp [hnone]
  | resend hc hphase hb hcalls hsame => rwa [hsame]
  | leave hc hphase hb hcalls hsame => rwa [hsame]

/-- What goes on after its `await` is sent for the last time, or settles. -/
theorem last_of_resume {t t' : Tab} (hsane : t.Sane) {i : Nat} (h : Taken t t' (.resume i)) : t'.Last i := by
  cases h with
  | @resend _ refresh c hc hphase hb hcalls hsame =>
      refine .inr ⟨_, (get_set hc hcalls).2 (.inl ⟨rfl, rfl⟩), rfl, ?_⟩
      have honce := hsane.once c (List.mem_of_getElem? hc)
      cases hflag : c.config.retriedAfterRefresh with
      | true => rfl
      | false => exact absurd hphase ((honce.first hflag).2 refresh)
  | leave hc hphase hb hcalls hsame =>
      refine .inl ⟨false, ?_⟩
      have := (get_set hc hcalls).2 (.inl ⟨rfl, rfl⟩)
      simp [Tab.outcome, this, Phase.outcome]

/-- A call whose refresh has settled and is not shared any more goes on. -/
theorem resumes (hfair : Fair e) (hsane : (e.state n).Sane) {c : Call} (hc : (e.state n).calls[i]? = some c)
    {refresh : Nat} (hphase : c.phase = .awaiting refresh) (hsettled : (e.state n).Settled refresh)
    (hother : (e.state n).refreshPromise ≠ some refresh) : e.Eventually n (Tab.Last i) := by
  refine (hfair.resumed i).eventually
    (Q := fun t => t.Sane ∧ t.calls[i]? = some c ∧ t.refreshPromise ≠ some refresh ∧ t.Settled refresh)
    (fun t ht => ⟨c, refresh, ht.2.1, hphase, ht.2.2⟩) (fun t a t' ht hresume hstep => ?_)
    (fun t a t' ht hresume hstep => ?_) ⟨hsane, hc, hother, hsettled⟩
  · obtain ⟨hsane, hc, hother, b, hb⟩ := ht
    have htaken := taken_of_step hstep
    refine ⟨hsane.step hstep, get_of_taken htaken hc (fun answer heq => ?_) hresume,
      unshared_of_taken htaken ⟨b, hb⟩ hother, b, outcome_of_taken htaken hb⟩
    have := inFlight_of_answer (heq ▸ htaken) hc
    rw [hphase] at this
    cases this
  · subst hresume
    exact last_of_resume ht.1 (taken_of_step hstep)

/-- A call that awaits a refresh goes on, whenever it is answered. -/
theorem last_of_awaiting (hfair : Fair e) (hsane : ∀ m, (e.state m).Sane) {c : Call}
    (hc : (e.state n).calls[i]? = some c) {refresh : Nat} (hphase : c.phase = .awaiting refresh) :
    e.Eventually n (Tab.Last i) := by
  by_contra hnever
  -- Otherwise the call would await its refresh for ever.
  have hwaits : ∀ m, n ≤ m → (e.state m).calls[i]? = some c := by
    intro m hm
    induction m, hm using Nat.le_induction with
    | base => exact hc
    | succ m hm ih =>
        obtain heq | ⟨a, -, hstep⟩ := e.moment m
        · rwa [heq]
        · have htaken := taken_of_step hstep
          refine get_of_taken htaken ih (fun answer heq => ?_) fun heq => ?_
          · have := inFlight_of_answer (heq ▸ htaken) ih
            rw [hphase] at this
            cases this
          · exact hnever ⟨m + 1, by omega, last_of_resume (hsane m) (heq ▸ htaken)⟩
  have hrefresh : e.Eventually n (Tab.Settled refresh) := by
    obtain ⟨d, hd, hurl⟩ := (hsane n).awaits c (List.mem_of_getElem? hc) refresh hphase
    have honce := (hsane n).once d (List.mem_of_getElem? hd)
    cases hdphase : d.phase with
    | inFlight => exact settles_of_last hfair hd hdphase (.inr (hurl ▸ isAuthEndpoint_refresh))
    | awaiting r => exact absurd hurl (honce.not_refresh hdphase)
    | settled b => exact .now ⟨b, by simp [Tab.outcome, hd, hdphase, Phase.outcome]⟩
  refine hnever (hrefresh.trans fun m hm hsettled => (clears hfair hsettled).trans fun k hk hclear => ?_)
  exact resumes hfair (hsane k) (hwaits k (hm.trans hk)) hphase hclear.2 hclear.1

theorem settles_of_lastly (hfair : Fair e) (h : (e.state n).Last i) : e.Eventually n (Tab.Settled i) := by
  obtain h | ⟨c, hc, hphase, hflag⟩ := h
  · exact .now h
  · exact settles_of_last hfair hc hphase (.inl hflag)

/-- Every call settles. -/
theorem settles (hfair : Fair e) (hsane : ∀ m, (e.state m).Sane) {c : Call}
    (hc : (e.state n).calls[i]? = some c) : e.Eventually n (Tab.Settled i) := by
  have hawaiting : ∀ {m : Nat} {c : Call} {refresh : Nat}, (e.state m).calls[i]? = some c →
      c.phase = .awaiting refresh → e.Eventually m (Tab.Settled i) := fun hc hphase =>
    (last_of_awaiting hfair hsane hc hphase).trans fun _ _ => settles_of_lastly hfair
  cases hphase : c.phase with
  | settled b => exact .now ⟨b, by simp [Tab.outcome, hc, hphase, Phase.outcome]⟩
  | awaiting refresh => exact hawaiting hc hphase
  | inFlight =>
      -- The first answer settles the call, or makes it await a refresh.
      have hanswered : e.Eventually n fun t =>
          t.Settled i ∨ ∃ c refresh, t.calls[i]? = some c ∧ c.phase = .awaiting refresh := by
        refine (hfair.answered i).eventually (Q := fun t => t.calls[i]? = some c) (fun t ht => ⟨c, ht, hphase⟩)
          (fun t a t' ht hother hstep => ?_) (fun t a t' ht hanswer hstep => ?_) hc
        · refine get_of_taken (taken_of_step hstep) ht (fun answer heq => hother ⟨answer, heq⟩) fun heq => ?_
          obtain ⟨refresh, hawaiting⟩ := awaiting_of_resume (heq ▸ taken_of_step hstep) ht
          rw [hphase] at hawaiting
          cases hawaiting
        · obtain ⟨answer, rfl⟩ := hanswer
          cases taken_of_step hstep with
          | settle answer fulfilled hd _ hcalls hpromise =>
              have := (get_set hd hcalls).2 (.inl ⟨rfl, rfl⟩)
              exact .inl ⟨fulfilled, by simp [Tab.outcome, this, Phase.outcome]⟩
          | await answer hd _ h401 hauth hfirst heq =>
              subst heq
              exact .inr ⟨_, _, (get_set (get_refreshSession hd) rfl).2 (.inl ⟨rfl, rfl⟩), rfl⟩
      refine hanswered.trans fun m _ h => ?_
      obtain h | ⟨c, refresh, hc, hphase⟩ := h
      · exact .now h
      · exact hawaiting hc hphase

/-- **The client retries once**: one refresh is on the way at most and no request is sent more than twice, the second
    time after a refresh that succeeded; a refresh is sent only where a request was refused for the first time, so
    that none follows from a refresh that failed; and every call settles if the network answers. -/
theorem client_retries_once (e : Execution Tab.step) (hstart : e.state 0 = .blank) :
    (∀ n, (e.state n).RetriesOnce) ∧ (∀ n a, e.taken n = some a → Careful (e.state n) (e.state (n + 1)) a) ∧
      (Fair e → ∀ n i, i < (e.state n).calls.length → e.Eventually n (Tab.Settled i)) := by
  have hsane : ∀ n, (e.state n).Sane := fun n =>
    e.always (fun t a t' ht hstep => ht.step hstep) (n := 0) (hstart ▸ sane_blank) (Nat.zero_le n)
  refine ⟨fun n => (hsane n).retriesOnce, fun n a ha => careful_of_step (hsane n) (e.steps n a ha),
    fun hfair n i hi => ?_⟩
  exact settles hfair hsane (List.getElem?_eq_getElem hi)

/-! ## A request that was refused -/

/-- The session has run out: the request of a page is refused, the session refreshed, and the request sent again. -/
def refused : Execution Tab.step :=
  .ofList Tab.step .blank [.request "/students/me", .answer 0 ⟨some 401, none⟩, .answer 1 ⟨some 200, none⟩, .clear,
    .resume 0, .answer 0 ⟨some 200, none⟩]

/-- In the end both calls have settled. -/
theorem refused_state (m : Nat) (hm : 6 ≤ m) : refused.state m =
    ⟨[⟨⟨"/students/me", true⟩, 2, .settled true⟩, ⟨⟨REFRESH, false⟩, 1, .settled true⟩], none, false, false⟩ := by
  have hend : refused.state 6 =
      ⟨[⟨⟨"/students/me", true⟩, 2, .settled true⟩, ⟨⟨REFRESH, false⟩, 1, .settled true⟩], none, false, false⟩ := by
    decide +kernel
  exact (Execution.ofList_ended _ _ hm).trans hend

theorem refused_fair : Fair refused := by
  have hcalls : ∀ {m i : Nat} {c : Call}, 6 ≤ m → (refused.state m).calls[i]? = some c → c.phase = .settled true := by
    intro m i c hm hc
    rw [refused_state m hm] at hc
    have := List.mem_of_getElem? hc
    simp only [List.mem_cons, List.not_mem_nil, or_false] at this
    rcases this with rfl | rfl <;> rfl
  refine ⟨fun i n hstays => ?_, fun n hstays => ?_, fun i n hstays => ?_⟩
  · obtain ⟨c, hc, hphase⟩ := hstays (n + 6) (by omega)
    rw [hcalls (by omega) hc] at hphase
    cases hphase
  · obtain ⟨refresh, hpromise, -⟩ := hstays (n + 6) (by omega)
    rw [refused_state (n + 6) (by omega)] at hpromise
    cases hpromise
  · obtain ⟨c, refresh, hc, hphase, -⟩ := hstays (n + 6) (by omega)
    rw [hcalls (by omega) hc] at hphase
    cases hphase

theorem client_retries_once_refused : Fair refused ∧ (refused.state 6).calls.map (·.sent) = [2, 1] ∧
    (∀ n, (refused.state n).RetriesOnce) ∧
    (∀ n a, refused.taken n = some a → Careful (refused.state n) (refused.state (n + 1)) a) ∧
    (∀ n i, i < (refused.state n).calls.length → refused.Eventually n (Tab.Settled i)) := by
  obtain ⟨honce, hcareful, hsettles⟩ := client_retries_once refused rfl
  exact ⟨refused_fair, by rw [refused_state 6 le_rfl]; rfl, honce, hcareful, hsettles refused_fair⟩

end GetPlatform.Browser
