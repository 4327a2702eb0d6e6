import LodelineManager.Foundation.MapDeletion
import LodelineManager.Foundation.FixedWindow
import LodelineManager.Go.Net
import LodelineManager.Go.Time

/-!
# The login rate limiter

{lit}`rateLimiter` keeps a fixed window for each client address, and its middleware
turns requests over the limit away.  For the address it is asked about, the
limiter is the counter of the window library.
-/

namespace LodelineManager
namespace Api

open Foundation FixedWindow Go

abbrev HitWindow := Counter

structure RateLimiter where
  max : Int
  window : Int
  hits : AList (fun _ : String => HitWindow)

def newRateLimiter (max window : Int) : RateLimiter :=
  { max := max, window := window, hits := ∅ }

def dropExpired (now : Int) (hits : AList (fun _ : String => HitWindow)) :
    AList (fun _ : String => HitWindow) :=
  deleteWhere (fun hw => decide (hw.reset < now)) hits

def RateLimiter.openWindow (rl : RateLimiter) (now : Int) (key : String) : RateLimiter :=
  let hits := if 1024 < rl.hits.entries.length then dropExpired now rl.hits else rl.hits
  { rl with hits := hits.insert key { count := 1, reset := now + rl.window } }

/-- {lit}`allow`: whether the attempt is under the limit, else the time until the window
resets. -/
def RateLimiter.allow (rl : RateLimiter) (now : Int) (key : String) : RateLimiter × Bool × Int :=
  match rl.hits.lookup key with
  | none => (rl.openWindow now key, true, 0)
  | some w =>
      if w.reset < now then (rl.openWindow now key, true, 0)
      else if rl.max <= w.count then (rl, false, w.reset - now)
      else ({ rl with hits := rl.hits.insert key { w with count := w.count + 1 } }, true, 0)

def clientIP (remoteAddr : String) : String :=
  match splitHostPort remoteAddr.toList with
  | some (host, _) => String.ofList host
  | none => remoteAddr

def isLoopback (ip : String) : Bool :=
  match parseIP ip with
  | some parsed => IP.isLoopback parsed
  | none => false

/-- The answer to a request over the limit. -/
structure Rejection where
  retryAfter : String
  status : Nat
  code : String
  message : String

/-- The limiter's middleware; {lit}`none` passes the request on to its handler. -/
def RateLimiter.middleware (rl : RateLimiter) (now : Int) (remoteAddr : String) :
    RateLimiter × Option Rejection :=
  let ip := clientIP remoteAddr
  if ip = "" ∨ isLoopback ip = true then (rl, none)
  else
    match rl.allow now ip with
    | (rl', true, _) => (rl', none)
    | (rl', false, retry) =>
        (rl', some
          { retryAfter := toString (retry.tdiv second + 1), status := 429
            code := "rate_limited"
            message := "too many login attempts — slow down and try again shortly" })

/-!
## The limiter counts
-/

theorem openWindow_lookup (rl : RateLimiter) (now : Int) (key : String) :
    (rl.openWindow now key).hits.lookup key =
      some { count := 1, reset := now + rl.window } :=
  AList.lookup_insert _

theorem lookup_of_openWindow {rl : RateLimiter} {now : Int} {key key' : String} {w : HitWindow}
    (hne : key' ≠ key) (h : (rl.openWindow now key).hits.lookup key' = some w) :
    rl.hits.lookup key' = some w := by
  unfold RateLimiter.openWindow at h
  rw [AList.lookup_insert_ne hne] at h
  split at h
  · exact lookup_of_deleteWhere h
  · exact h

theorem allow_hit (rl : RateLimiter) (now : Int) (key : String) :
    (rl.allow now key).2.1 = (hit rl.max rl.window now (rl.hits.lookup key)).2 ∧
      (rl.allow now key).1.hits.lookup key =
        some (hit rl.max rl.window now (rl.hits.lookup key)).1 := by
  unfold RateLimiter.allow
  cases hlookup : rl.hits.lookup key with
  | none => exact ⟨rfl, openWindow_lookup rl now key⟩
  | some w =>
      by_cases hover : w.reset < now
      · simp only [hit, if_pos hover]
        exact ⟨trivial, openWindow_lookup rl now key⟩
      · by_cases hfull : rl.max <= w.count
        · simp only [hit, if_neg hover, if_pos hfull]
          exact ⟨trivial, hlookup⟩
        · simp only [hit, if_neg hover, if_neg hfull]
          exact ⟨trivial, AList.lookup_insert _⟩

theorem lookup_of_allow {rl : RateLimiter} {now : Int} {key key' : String} {w : HitWindow}
    (hne : key' ≠ key) (h : (rl.allow now key).1.hits.lookup key' = some w) :
    rl.hits.lookup key' = some w := by
  unfold RateLimiter.allow at h
  split at h
  · exact lookup_of_openWindow hne h
  · split at h
    · exact lookup_of_openWindow hne h
    · split at h
      · exact h
      · rw [AList.lookup_insert_ne hne] at h
        exact h

theorem allow_config (rl : RateLimiter) (now : Int) (key : String) :
    (rl.allow now key).1.max = rl.max ∧ (rl.allow now key).1.window = rl.window := by
  unfold RateLimiter.allow
  split
  · exact ⟨rfl, rfl⟩
  · split
    · exact ⟨rfl, rfl⟩
    · split
      · exact ⟨rfl, rfl⟩
      · exact ⟨rfl, rfl⟩

/-- The addresses that the middleware counts. -/
def Limitable (ip : String) : Prop := ip ≠ "" ∧ isLoopback ip = false

theorem middleware_exempt (rl : RateLimiter) (now : Int) {addr : String}
    (h : ¬ Limitable (clientIP addr)) : rl.middleware now addr = (rl, none) := by
  unfold RateLimiter.middleware
  have hexempt : clientIP addr = "" ∨ isLoopback (clientIP addr) = true := by
    by_cases hempty : clientIP addr = ""
    · exact Or.inl hempty
    · refine Or.inr ?_
      cases hloop : isLoopback (clientIP addr) with
      | true => rfl
      | false => exact absurd ⟨hempty, hloop⟩ h
  exact if_pos hexempt

theorem middleware_allow (rl : RateLimiter) (now : Int) {addr : String}
    (h : Limitable (clientIP addr)) :
    (rl.middleware now addr).1 = (rl.allow now (clientIP addr)).1 ∧
      ((rl.middleware now addr).2.isNone = (rl.allow now (clientIP addr)).2.1) := by
  have hcount : ¬ (clientIP addr = "" ∨ isLoopback (clientIP addr) = true) := by
    rw [not_or, h.right]
    exact ⟨h.left, Bool.false_ne_true⟩
  unfold RateLimiter.middleware
  simp only [if_neg hcount]
  rcases rl.allow now (clientIP addr) with ⟨rl', ok, retry⟩
  cases ok with
  | true => exact ⟨rfl, rfl⟩
  | false => exact ⟨rfl, rfl⟩

end Api
end LodelineManager
