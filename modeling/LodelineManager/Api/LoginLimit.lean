import LodelineManager.Api.RateLimit

/-!
# The login limit behind the router

The router puts {lit}`middleware.RealIP` in front of the limiter of the login route, so the
limiter counts by an address that a request may name itself.  The middleware is
not part of the repository and is a parameter with its documented effect.
-/

namespace LodelineManager
namespace Api

open Foundation FixedWindow Go

abbrev Header := List (String × String)

/-- {lit}`Header.Get`: the first value of a field, or the empty text. -/
def Header.get (h : Header) (name : String) : String := (h.lookup name).getD ""

/-- The first of the three fields of {lit}`middleware.RealIP` that has a value. -/
def headerIP (h : Header) : String :=
  if Header.get h "True-Client-Ip" ≠ "" then Header.get h "True-Client-Ip"
  else if Header.get h "X-Real-Ip" ≠ "" then Header.get h "X-Real-Ip"
  else String.ofList ((Header.get h "X-Forwarded-For").toList.takeWhile (fun c => c ≠ ','))

def namedIP (h : Header) : Option String :=
  if (parseIP (headerIP h)).isSome then some (headerIP h) else none

/-- What {lit}`middleware.RealIP` makes of a remote address. -/
def OverwritesRemoteAddr (realIP : Header -> String -> String) : Prop :=
  forall h addr, realIP h addr = (namedIP h).getD addr

/-- The address of a TCP peer as {lit}`net/http` writes it. -/
structure PeerAddr where
  host : String
  named : host ≠ ""
  noOpen : '[' ∉ host.toList
  noClose : ']' ∉ host.toList

def PeerAddr.remoteAddr (peer : PeerAddr) (port : Nat) : String :=
  String.ofList (joinHostPort peer.host.toList (Nat.toDigits 10 port))

/-- A {lit}`POST /api/v1/auth/login`: the port of its connection, its header, and what the
clock shows the limiter. -/
structure LoginRequest where
  port : Nat
  header : Header
  now : Int

/-- One login request through the router: {lit}`none` when it reaches {lit}`handleLogin`. -/
def serveLogin (realIP : Header -> String -> String) (peer : PeerAddr) (rl : RateLimiter)
    (r : LoginRequest) : RateLimiter × Option Rejection :=
  rl.middleware r.now (realIP r.header (peer.remoteAddr r.port))

/-- The login requests of one peer, with those that reach {lit}`handleLogin`. -/
def serveLogins (realIP : Header -> String -> String) (peer : PeerAddr) :
    RateLimiter -> List LoginRequest -> RateLimiter × Trace
  | rl, [] => (rl, [])
  | rl, r :: rest =>
      ((serveLogins realIP peer (serveLogin realIP peer rl r).1 rest).1,
        (r.now, (serveLogin realIP peer rl r).2.isNone) ::
          (serveLogins realIP peer (serveLogin realIP peer rl r).1 rest).2)

/-- The limiter of {lit}`Routes`. -/
def loginLimiter : RateLimiter := newRateLimiter 10 minute

/-!
## The address that counts
-/

theorem not_mem_toDigits (port : Nat) {c : Char} (hc : c.isDigit = false) :
    c ∉ Nat.toDigits 10 port := by
  intro hmem
  rw [Nat.isDigit_of_mem_toDigits (by decide) (by decide) hmem] at hc
  cases hc

theorem clientIP_remoteAddr (peer : PeerAddr) (port : Nat) :
    clientIP (peer.remoteAddr port) = peer.host := by
  unfold clientIP PeerAddr.remoteAddr
  rw [String.toList_ofList, split_join peer.noOpen peer.noClose (not_mem_toDigits port rfl)
    (not_mem_toDigits port rfl) (not_mem_toDigits port rfl)]
  exact String.ofList_toList

theorem parseIP_of_namedIP {h : Header} {ip : String} (hip : namedIP h = some ip) :
    exists parsed, parseIP ip = some parsed := by
  unfold namedIP at hip
  split at hip
  · rename_i hsome
    cases hip
    exact Option.isSome_iff_exists.mp hsome
  · cases hip

theorem namedIP_ne_empty {h : Header} {ip : String} (hip : namedIP h = some ip) : ip ≠ "" := by
  intro hempty
  rcases parseIP_of_namedIP hip with ⟨parsed, hparse⟩
  rw [hempty] at hparse
  cases hparse

theorem clientIP_of_namedIP {h : Header} {ip : String} (hip : namedIP h = some ip) :
    clientIP ip = ip := by
  rcases parseIP_of_namedIP hip with ⟨parsed, hparse⟩
  unfold clientIP
  rw [splitHostPort_of_parseIP hparse]

def countedIP (peer : PeerAddr) (h : Header) : String := (namedIP h).getD peer.host

theorem countedIP_ne_empty (peer : PeerAddr) (h : Header) : countedIP peer h ≠ "" := by
  unfold countedIP
  cases hip : namedIP h with
  | none => exact peer.named
  | some ip => exact namedIP_ne_empty hip

theorem clientIP_realIP {realIP : Header -> String -> String} (hreal : OverwritesRemoteAddr realIP)
    (peer : PeerAddr) (port : Nat) (h : Header) :
    clientIP (realIP h (peer.remoteAddr port)) = countedIP peer h := by
  rw [hreal, countedIP]
  cases hip : namedIP h with
  | none => exact clientIP_remoteAddr peer port
  | some ip => exact clientIP_of_namedIP hip

section

variable {realIP : Header -> String -> String} (hreal : OverwritesRemoteAddr realIP)
  {peer : PeerAddr}

include hreal

theorem serveLogin_exempt (rl : RateLimiter) (r : LoginRequest)
    (h : isLoopback (countedIP peer r.header) = true) :
    serveLogin realIP peer rl r = (rl, none) := by
  apply middleware_exempt
  rw [clientIP_realIP hreal]
  intro hlimit
  rw [hlimit.right] at h
  cases h

theorem serveLogin_counts (rl : RateLimiter) (r : LoginRequest)
    (h : isLoopback (countedIP peer r.header) = false) :
    (serveLogin realIP peer rl r).1 = (rl.allow r.now (countedIP peer r.header)).1 ∧
      (serveLogin realIP peer rl r).2.isNone =
        (rl.allow r.now (countedIP peer r.header)).2.1 := by
  have hlimit : Limitable (clientIP (realIP r.header (peer.remoteAddr r.port))) := by
    rw [clientIP_realIP hreal]
    exact ⟨countedIP_ne_empty peer r.header, h⟩
  have hallow := middleware_allow rl r.now hlimit
  rw [clientIP_realIP hreal] at hallow
  exact hallow

end

/-!
## One address
-/

/-- All the headers name one address that is not a loopback one, or leave that of the
peer. -/
def OneAddress (peer : PeerAddr) (headers : Header -> Prop) : Prop :=
  exists ip, isLoopback ip = false ∧ forall h, headers h -> countedIP peer h = ip

theorem counted_serveLogins {realIP : Header -> String -> String}
    (hreal : OverwritesRemoteAddr realIP) {peer : PeerAddr} {ip : String}
    (hip : isLoopback ip = false) (rl : RateLimiter) {requests : List LoginRequest}
    (h : forall r, r ∈ requests -> countedIP peer r.header = ip) :
    Counted rl.max rl.window (rl.hits.lookup ip) (serveLogins realIP peer rl requests).2 := by
  induction requests generalizing rl with
  | nil => trivial
  | cons r rest ih =>
      have hr := h r List.mem_cons_self
      rcases serveLogin_counts hreal rl r (hr.symm ▸ hip) with ⟨hnext, hreached⟩
      rw [hr] at hnext hreached
      rcases allow_hit rl r.now ip with ⟨hok, hlookup⟩
      rcases allow_config rl r.now ip with ⟨hmax, hwindow⟩
      have hrest := ih (serveLogin realIP peer rl r).1
        (fun q hq => h q (List.mem_cons_of_mem r hq))
      rw [hnext, hmax, hwindow, hlookup, ← hnext] at hrest
      exact ⟨hreached.trans hok, hrest⟩

theorem serveLogins_append (realIP : Header -> String -> String) (peer : PeerAddr)
    (rl : RateLimiter) (front back : List LoginRequest) :
    serveLogins realIP peer rl (front ++ back) =
      ((serveLogins realIP peer (serveLogins realIP peer rl front).1 back).1,
        (serveLogins realIP peer rl front).2 ++
          (serveLogins realIP peer (serveLogins realIP peer rl front).1 back).2) := by
  induction front generalizing rl with
  | nil => rfl
  | cons r rest ih =>
      rw [List.cons_append, serveLogins, ih]
      rfl

/-!
## Several addresses
-/

def burst (header : Header) (n : Nat) : List LoginRequest :=
  List.replicate n { port := 0, header := header, now := 0 }

theorem burst_succ (header : Header) (n : Nat) :
    burst header (n + 1) = burst header n ++ burst header 1 :=
  List.replicate_succ'

section

variable {realIP : Header -> String -> String} (hreal : OverwritesRemoteAddr realIP)
  {peer : PeerAddr} {header : Header}

include hreal

theorem serveLogins_exempt (h : isLoopback (countedIP peer header) = true) (rl : RateLimiter)
    (n : Nat) : serveLogins realIP peer rl (burst header n) = (rl, List.replicate n (0, true)) := by
  induction n with
  | zero => rfl
  | succ n ih =>
      show serveLogins realIP peer rl
        ({ port := 0, header := header, now := 0 } :: burst header n) = _
      rw [serveLogins, serveLogin_exempt hreal rl ⟨0, header, 0⟩ h, ih]
      rfl

/-- What ten requests under one address leave in the limiter. -/
structure Filled (ip : String) (n : Nat) (rl : RateLimiter) : Prop where
  max : rl.max = 10
  window : rl.window = minute
  own : rl.hits.lookup ip = if n = 0 then none else some { count := n, reset := minute }
  other : forall ip', ip' ≠ ip -> rl.hits.lookup ip' = none

omit hreal in
theorem filled_loginLimiter (ip : String) : Filled ip 0 loginLimiter where
  max := rfl
  window := rfl
  own := AList.lookup_empty ip
  other := fun ip' _ => AList.lookup_empty ip'

omit hreal in
theorem Filled.allow {ip : String} {n : Nat} {rl : RateLimiter} (h : Filled ip n rl)
    (hn : n < 10) : Filled ip (n + 1) (rl.allow 0 ip).1 ∧ (rl.allow 0 ip).2.1 = true := by
  have hhit : hit rl.max rl.window 0 (rl.hits.lookup ip) =
      ({ count := (n : Int) + 1, reset := minute }, true) := by
    rw [h.max, h.window, h.own]
    cases n with
    | zero => rfl
    | succ n =>
        have hopen : ¬ minute < 0 := by decide
        have hroom : ¬ (10 : Int) <= ((n + 1 : Nat) : Int) := by omega
        rw [if_neg (Nat.succ_ne_zero n), hit, if_neg hopen, if_neg hroom]
  rcases allow_hit rl 0 ip with ⟨hok, hlookup⟩
  rcases allow_config rl 0 ip with ⟨hmax, hwindow⟩
  rw [hhit] at hok hlookup
  refine ⟨⟨hmax.trans h.max, hwindow.trans h.window, hlookup, ?_⟩, hok⟩
  intro ip' hne
  cases hafter : (rl.allow 0 ip).1.hits.lookup ip' with
  | none => rfl
  | some w =>
      have hbefore := lookup_of_allow hne hafter
      rw [h.other ip' hne] at hbefore
      cases hbefore

theorem serveLogins_fill (h : isLoopback (countedIP peer header) = false) (n : Nat)
    (hn : n <= 10) :
    Filled (countedIP peer header) n (serveLogins realIP peer loginLimiter (burst header n)).1 ∧
      (serveLogins realIP peer loginLimiter (burst header n)).2 = List.replicate n (0, true) := by
  induction n with
  | zero => exact ⟨filled_loginLimiter _, rfl⟩
  | succ n ih =>
      rcases ih (Nat.le_of_succ_le hn) with ⟨hfilled, htrace⟩
      rw [burst_succ, serveLogins_append]
      rcases serveLogin_counts hreal (serveLogins realIP peer loginLimiter (burst header n)).1
        ⟨0, header, 0⟩ h with ⟨hnext, hreached⟩
      rcases hfilled.allow (Nat.lt_of_succ_le hn) with ⟨hmore, hok⟩
      refine ⟨?_, ?_⟩
      · show Filled _ _ (serveLogin realIP peer _ _).1
        rw [hnext]
        exact hmore
      · show _ ++ [(0, (serveLogin realIP peer _ _).2.isNone)] = _
        rw [hreached, hok, htrace]
        exact List.replicate_succ'.symm

theorem serveLogin_other {ip : String} {rl : RateLimiter} (hfilled : Filled ip 10 rl)
    (hne : countedIP peer header ≠ ip) :
    (serveLogin realIP peer rl { port := 0, header := header, now := 0 }).2.isNone = true := by
  cases hloop : isLoopback (countedIP peer header) with
  | true =>
      rw [serveLogin_exempt hreal rl ⟨0, header, 0⟩ hloop]
      rfl
  | false =>
      rw [(serveLogin_counts hreal rl ⟨0, header, 0⟩ hloop).right,
        (allow_hit rl 0 (countedIP peer header)).left, hfilled.other _ hne]
      rfl

end

theorem not_limited_eleven : ¬ Limited 10 minute (List.replicate 11 (0, true)) := by
  intro h
  have hall : forall b, b ∈ List.replicate 10 ((0, true) : Int × Bool) -> b.1 <= 0 + minute := by
    intro b hb
    rw [List.eq_of_mem_replicate hb]
    decide
  exact absurd (h _ (isWindow_whole hall)) (by decide)

/-- The peer sends requests with these headers only. -/
def SentWith (headers : Header -> Prop) (requests : List LoginRequest) : Prop :=
  forall r, r ∈ requests -> headers r.header

theorem sentWith_burst {headers : Header -> Prop} {h : Header} (hh : headers h) (n : Nat) :
    SentWith headers (burst h n) := by
  intro r hr
  rw [List.eq_of_mem_replicate hr]
  exact hh

/-- The limit holds for everything the peer may send with these headers. -/
def LoginsLimited (realIP : Header -> String -> String) (peer : PeerAddr)
    (headers : Header -> Prop) : Prop :=
  forall requests, SentWith headers requests ->
    Limited 10 minute (serveLogins realIP peer loginLimiter requests).2

theorem not_loopback_of_limited {realIP : Header -> String -> String}
    (hreal : OverwritesRemoteAddr realIP) {peer : PeerAddr} {headers : Header -> Prop}
    (hlimited : LoginsLimited realIP peer headers) {h : Header} (hh : headers h) :
    isLoopback (countedIP peer h) = false := by
  cases hloop : isLoopback (countedIP peer h) with
  | false => rfl
  | true =>
      have hburst := hlimited (burst h 11) (sentWith_burst hh 11)
      rw [serveLogins_exempt hreal hloop] at hburst
      exact absurd hburst not_limited_eleven

theorem same_of_limited {realIP : Header -> String -> String}
    (hreal : OverwritesRemoteAddr realIP) {peer : PeerAddr} {headers : Header -> Prop}
    (hlimited : LoginsLimited realIP peer headers) {h h' : Header} (hh : headers h)
    (hh' : headers h') : countedIP peer h' = countedIP peer h := by
  by_contra hne
  have hloop := not_loopback_of_limited hreal hlimited hh
  rcases serveLogins_fill hreal hloop 10 (Nat.le_refl 10) with ⟨hfilled, htrace⟩
  have hsent : SentWith headers (burst h 10 ++ burst h' 1) := by
    intro r hr
    rcases List.mem_append.mp hr with hr | hr
    · exact sentWith_burst hh 10 r hr
    · exact sentWith_burst hh' 1 r hr
  have hburst := hlimited _ hsent
  rw [serveLogins_append, htrace] at hburst
  change Limited 10 minute (List.replicate 10 (0, true) ++
    [(0, (serveLogin realIP peer _ _).2.isNone)]) at hburst
  rw [serveLogin_other hreal hfilled hne] at hburst
  exact absurd hburst not_limited_eleven

/-- At most ten of the login requests that a peer can send reach the handler in any
window exactly when they all count under one address that is not exempt. -/
theorem logins_limited_iff {realIP : Header -> String -> String}
    (hreal : OverwritesRemoteAddr realIP) (peer : PeerAddr) (headers : Header -> Prop) :
    LoginsLimited realIP peer headers <-> OneAddress peer headers := by
  constructor
  · intro hlimited
    by_cases hsome : exists h, headers h
    · rcases hsome with ⟨h, hh⟩
      exact ⟨countedIP peer h, not_loopback_of_limited hreal hlimited hh,
        fun h' hh' => same_of_limited hreal hlimited hh hh'⟩
    · exact ⟨"", by decide, fun h hh => absurd ⟨h, hh⟩ hsome⟩
  · rintro ⟨ip, hip, hall⟩ requests hsent
    have hcounted := counted_serveLogins hreal hip loginLimiter
      (fun r hr => hall r.header (hsent r hr))
    refine limited_of_counted (by decide) ?_ hcounted
    intro a rest o _ ho
    cases ho

def remotePeer : PeerAddr where
  host := "203.0.113.9"
  named := by decide
  noOpen := by decide
  noClose := by decide

/-- Twelve requests that name no address. -/
theorem logins_limited_plain :
    Limited 10 minute
      (serveLogins (fun h addr => (namedIP h).getD addr) remotePeer loginLimiter
        (burst [] 12)).2 := by
  have hplain : OneAddress remotePeer (fun h => h = []) := by
    refine ⟨"203.0.113.9", by decide, ?_⟩
    intro h hh
    rw [hh]
    decide
  refine (logins_limited_iff (fun _ _ => rfl) remotePeer _).mpr hplain _ ?_
  intro r hr
  rw [List.eq_of_mem_replicate hr]

/-- A remote peer gets eleven login requests through at once by naming another address in
the last one. -/
theorem logins_not_limited :
    isLoopback remotePeer.host = false ∧
    ¬ Limited 10 minute
      (serveLogins (fun h addr => (namedIP h).getD addr) remotePeer loginLimiter
        (burst [("X-Real-Ip", "198.51.100.1")] 10 ++
          burst [("X-Real-Ip", "198.51.100.2")] 1)).2 := by
  have htrace : (serveLogins (fun h addr => (namedIP h).getD addr) remotePeer loginLimiter
      (burst [("X-Real-Ip", "198.51.100.1")] 10 ++
        burst [("X-Real-Ip", "198.51.100.2")] 1)).2 = List.replicate 11 (0, true) := by
    decide
  rw [htrace]
  exact ⟨by decide, not_limited_eleven⟩

end Api
end LodelineManager
