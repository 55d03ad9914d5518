import GetPlatform.Auth.Reuse

set_option autoImplicit false

/-! # The tabs of a browser

The response interceptor and `refreshSession` of the frontend run in every tab by themselves, over the
cookies that the tabs share and the calls of the backend. A request of a page goes to an endpoint behind
the guard, so it is the call that checks its access token; what the handler answers after that is left
open. The response of a refresh may be lost, and then the backend still carries the call out. -/

namespace GetPlatform.Auth

open Pool Prog

def AUTH_ENDPOINTS_WITHOUT_REDIRECT : List String :=
  ["/auth/login", "/auth/register", "/auth/refresh", "/auth/mfa/login-verify"]

def isAuthEndpoint (url : String) : Bool :=
  AUTH_ENDPOINTS_WITHOUT_REDIRECT.any fun path => path.toList <:+: url.toList

/-- A request that was sent, the place of the call that checks its access token if it carried one, and
    `_retriedAfterRefresh`. -/
structure Request where
  url : String
  call : Option Nat
  retriedAfterRefresh : Bool

/-- What a tab holds: the requests it has sent, those that await `refreshPromise`, and the promise. The
    promise is for the call at a place, unless there was no refresh cookie to send. -/
structure Tab where
  sent : List Request
  awaiting : List String
  refreshPromise : Option (Option Nat)

/-- A page that was just loaded. -/
def Tab.blank : Tab := ⟨[], [], none⟩

structure Browser where
  accessToken : Option Token
  refreshToken : Option Token
  tabs : List Tab
  /-- The places of the calls of `/auth/refresh` that the tabs have made. -/
  refreshes : List Nat

structure System where
  backend : Platform
  browser : Browser

namespace System

/-- A browser without tabs that holds these cookies. -/
def start (s₀ : World) (accessToken : Option Token) (refreshToken : Token) : System :=
  ⟨idle s₀, ⟨accessToken, some refreshToken, [], []⟩⟩

/-- A call reaches the backend. -/
def spawn (s : System) (o : Op) : System :=
  { s with backend := ⟨s.backend.db, s.backend.threads ++ [⟨.start o, some (prog o)⟩]⟩ }

/-- Send a request with the access cookie. -/
def fetch (s : System) (url : String) (retried : Bool) : System × Request :=
  match s.browser.accessToken with
  | some token => (s.spawn (.authenticate token), ⟨url, some s.backend.threads.length, retried⟩)
  | none => (s, ⟨url, none, retried⟩)

/-- Send requests again, in order. -/
def resend (s : System) : List String → System × List Request
  | [] => (s, [])
  | url :: urls =>
      let (s', r) := s.fetch url true
      let (s'', rs) := s'.resend urls
      (s'', r :: rs)

/-- `apiClient.post('/auth/refresh')`, with the refresh cookie. -/
def post (s : System) : System × Option Nat :=
  match s.browser.refreshToken with
  | some token =>
      let i := s.backend.threads.length
      let s' := s.spawn (.refreshTokens token)
      ({ s' with browser := { s'.browser with refreshes := i :: s'.browser.refreshes } }, some i)
  | none => (s, none)

/-- One refresh at a time, in this tab. -/
def refreshSession (s : System) (tab : Tab) : System × Tab :=
  match tab.refreshPromise with
  | some _ => (s, tab)
  | none => (s.post.1, { tab with refreshPromise := some s.post.2 })

def setTab (s : System) (k : Nat) (tab : Tab) : System :=
  { s with browser := { s.browser with tabs := s.browser.tabs.set k tab } }

/-- The response interceptor, for the response to `r`; `none` if it was lost. A redirection loads the
    page anew. -/
def interceptor (s : System) (k : Nat) (tab : Tab) (r : Request) (status : Option Nat) : System :=
  if status = some 401 ∧ ¬ isAuthEndpoint r.url then
    if r.retriedAfterRefresh then s.setTab k .blank
    else
      let (s', tab') := s.refreshSession { tab with awaiting := tab.awaiting ++ [r.url] }
      s'.setTab k tab'
  else s.setTab k tab

/-- The promise of the tab has settled: whoever awaits it goes on. -/
def settle (s : System) (k : Nat) (tab : Tab) : Bool → System
  | true =>
      let (s', sent) := s.resend tab.awaiting
      s'.setTab k ⟨tab.sent ++ sent, [], none⟩
  | false => s.setTab k .blank

/-- `setSessionCookies`. -/
def setSessionCookies (s : System) (tokens : Tokens) : System :=
  { s with browser := { s.browser with
      accessToken := some tokens.accessToken, refreshToken := some tokens.refreshToken } }

/-- What the call at place `i` has ended with. -/
def ended (s : System) (i : Nat) : Option (Except Err Reply) :=
  match (s.backend.threads[i]?).bind (·.rest) with
  | some (.ret reply) => some (.ok reply)
  | some (.fail e) => some (.error e)
  | _ => none

/-- May the request be answered with this status? The guard comes before the handler. -/
def answers (s : System) (r : Request) (status : Nat) : Bool :=
  match r.call with
  | none => status = 401
  | some i =>
      match s.ended i with
      | some (.ok _) => true
      | some (.error (.UnauthorizedException _)) => status = 401
      | some (.error _) => status ≠ 401
      | none => false

end System

/-- What can happen to a browser and the backend. -/
inductive Act where
  /-- A step of a call, the call of another party, or time passing. -/
  | backend (a : Step model Op)
  | openTab
  /-- The tab is closed, or loads another page. -/
  | leave (k : Nat)
  /-- A cookie has expired. -/
  | expireAccess
  | expireRefresh
  | request (k : Nat) (url : String)
  /-- The response to a request of the tab, or none. -/
  | response (k n : Nat) (status : Option Nat)
  /-- The response to the refresh of the tab. -/
  | refreshed (k : Nat)
  /-- The refresh of the tab fails without a response, or takes more than 10 seconds. -/
  | lost (k : Nat)

namespace System

/-- The response to the refresh of the tab arrives. -/
def receive (s : System) (k : Nat) (tab : Tab) : Option Nat → Option System
  | none => some (s.settle k tab false)
  | some i =>
      match s.ended i with
      | some (.ok (.session session)) =>
          some ((s.setSessionCookies session.toTokens).settle k tab true)
      | some (.error _) => some (s.settle k tab false)
      | _ => none

def step (s : System) : Act → Option System
  | .backend a => (s.backend.step prog a).map fun p => { s with backend := p }
  | .openTab => some { s with browser := { s.browser with tabs := s.browser.tabs ++ [.blank] } }
  | .leave k => some (s.setTab k .blank)
  | .expireAccess => some { s with browser := { s.browser with accessToken := none } }
  | .expireRefresh => some { s with browser := { s.browser with refreshToken := none } }
  | .request k url =>
      match s.browser.tabs[k]? with
      | none => none
      | some tab =>
          let (s', r) := s.fetch url false
          some (s'.setTab k { tab with sent := tab.sent ++ [r] })
  | .response k n status =>
      match s.browser.tabs[k]? with
      | none => none
      | some tab =>
          match tab.sent[n]? with
          | none => none
          | some r =>
              if status.all (s.answers r) then
                some (s.interceptor k { tab with sent := tab.sent.eraseIdx n } r status)
              else none
  | .refreshed k =>
      match s.browser.tabs[k]? with
      | none => none
      | some tab => tab.refreshPromise.bind (s.receive k tab)
  | .lost k =>
      match s.browser.tabs[k]? with
      | none => none
      | some tab => tab.refreshPromise.map fun _ => s.settle k tab false

/-- Carry out a list of acts, all of which must be possible and satisfy `R`. -/
def play (R : System → Act → Prop) [∀ s a, Decidable (R s a)] (s : System) : List Act → Option System
  | [] => some s
  | a :: as => if R s a then (s.step a).bind fun s' => s'.play R as else none

/-- What is reached from `s₀` by acts that all satisfy `R`. -/
inductive Reaches (R : System → Act → Prop) (s₀ : System) : System → Prop
  | refl : Reaches R s₀ s₀
  | step {s s' : System} {a : Act} : Reaches R s₀ s → R s a → s.step a = some s' → Reaches R s₀ s'

theorem Reaches.trans {R : System → Act → Prop} {s₀ s s' : System} (h : Reaches R s₀ s)
    (h' : Reaches R s s') : Reaches R s₀ s' := by
  induction h' with
  | refl => exact h
  | step _ hR hs ih => exact .step ih hR hs

theorem reaches_of_play {R : System → Act → Prop} [∀ s a, Decidable (R s a)] {s : System}
    {as : List Act} {f : System → Bool} (h : (s.play R as).any f = true) :
    ∃ s', Reaches R s s' ∧ f s' = true := by
  induction as generalizing s with
  | nil => exact ⟨s, .refl, h⟩
  | cons a as ih =>
      simp only [play] at h
      split at h
      · next hR =>
          cases hs : s.step a with
          | none => simp [hs] at h
          | some s₁ =>
              rw [hs] at h
              obtain ⟨s', hrun, hf⟩ := ih h
              exact ⟨s', Reaches.trans (.step .refl hR hs) hrun, hf⟩
      · cases h

end System

end GetPlatform.Auth
