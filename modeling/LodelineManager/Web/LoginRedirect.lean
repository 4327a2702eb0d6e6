import LodelineManager.Foundation.UrlReference
import LodelineManager.Foundation.Utf16

/-!
# Where the login page goes next

The login page takes the place to go to from its own search parameters.  What it accepts is
tested before the URL parser takes tabs and newlines out of it.
-/

namespace LodelineManager
namespace Web

open Foundation UrlReference

abbrev JsString := List UInt16

def jsString (s : String) : JsString := s.toList.flatMap Utf16.encodeChar

def toScalars (s : JsString) : List Char := Utf16.decode (s.map .code)

def startsWith (s start : JsString) : Bool := start.isPrefixOf s

/-- A value of the search parameters; the last stands for everything else. -/
inductive SearchValue where
  | string (s : JsString)
  | number (n : Int)
  | boolean (b : Bool)
  | other
  deriving DecidableEq

structure RawSearch where
  redirect : SearchValue := .other
  oidcError : SearchValue := .other

structure Search where
  redirect : Option JsString
  oidcError : Option Bool

def validateSearch (raw : RawSearch) : Search :=
  { redirect :=
      match raw.redirect with
      | .string s =>
          if startsWith s (jsString "/") && !startsWith s (jsString "//") &&
              !decide (jsString "\\" <:+: s) then some s
          else none
      | _ => none
    oidcError :=
      if raw.oidcError = .string (jsString "1") ∨ raw.oidcError = .number 1 ∨
          raw.oidcError = .boolean true then some true
      else none }

def destination (search : Search) : JsString := search.redirect.getD (jsString "/alerts")

/-!
## What is accepted
-/

theorem accepted_of_validateSearch {raw : RawSearch} {s : JsString}
    (h : (validateSearch raw).redirect = some s) :
    startsWith s (jsString "/") = true ∧ startsWith s (jsString "//") = false ∧
      ¬ jsString "\\" <:+: s := by
  have hredirect : (match raw.redirect with
      | .string s =>
          if startsWith s (jsString "/") && !startsWith s (jsString "//") &&
              !decide (jsString "\\" <:+: s) then some s
          else none
      | _ => none) = some s := h
  split at hredirect
  · split at hredirect
    · rename_i htests
      cases hredirect
      rw [Bool.and_eq_true, Bool.and_eq_true, Bool.not_eq_true', Bool.not_eq_true',
        decide_eq_false_iff_not] at htests
      exact ⟨htests.left.left, htests.left.right, htests.right⟩
    · cases hredirect
  · cases hredirect

theorem toScalars_slash {s : JsString} (h : startsWith s (jsString "/") = true) :
    toScalars s = '/' :: (toScalars s).tail := by
  have hslash : jsString "/" = [47] := by decide
  rw [hslash] at h
  unfold toScalars
  cases s with
  | nil => cases h
  | cons u rest =>
      have hu : 47 = u := beq_iff_eq.mp ((Bool.and_eq_true _ _).mp h).left
      rw [← hu, List.map_cons, Utf16.decode_single (by decide) (by decide)]
      rfl

theorem backslash_not_mem_toScalars {s : JsString} (h : ¬ jsString "\\" <:+: s) :
    '\\' ∉ toScalars s := by
  have hbackslash : jsString "\\" = [92] := by decide
  intro hmem
  rcases List.mem_map.mp (Utf16.mem_of_mem_decode (by decide) hmem) with ⟨u, hu, hcode⟩
  cases hcode
  apply h
  rcases List.append_of_mem hu with ⟨front, back, hs⟩
  rw [hbackslash]
  exact ⟨front, back, by rw [hs, List.append_assoc]; rfl⟩

section

variable {host : Type} (hostParser : List Char -> Option host)
  (schemed : List Char -> Option (Url host)) (page : Url host)

/-- The page goes to a URL on its own origin. -/
def OnOwnOrigin (s : JsString) : Prop :=
  exists u, resolve hostParser schemed page (toScalars s) = some u ∧ u.origin = page.origin

/-- An accepted string leads to the console's own origin unless only tabs and newlines stand
between its first slash and a second one, and the authority behind them is another one.
Without an accepted string the page stays on the console as well. -/
theorem redirect_ownOrigin_iff (raw : RawSearch) :
    (forall s, (validateSearch raw).redirect = some s ->
      (OnOwnOrigin hostParser schemed page s <->
        forall rest, (toScalars s).tail.dropWhile isTabOrNewline = '/' :: rest ->
          NamesOrigin hostParser page (authorityText (tidied rest)))) ∧
    ((validateSearch raw).redirect = none ->
      OnOwnOrigin hostParser schemed page (destination (validateSearch raw))) := by
  constructor
  · intro s hs
    rcases accepted_of_validateSearch hs with ⟨hslash, _, hbackslash⟩
    have hscalars := toScalars_slash hslash
    have hno := backslash_not_mem_toScalars hbackslash
    unfold OnOwnOrigin
    rw [hscalars, resolve_slash_origin_iff, List.tail_cons]
    constructor
    · intro hall rest hrest
      exact hall '/' rest hrest (by decide)
    · intro hall c rest hrest hc
      have hmem : c ∈ toScalars s := by
        rw [hscalars]
        apply List.mem_cons_of_mem
        apply (List.dropWhile_suffix isTabOrNewline).subset
        rw [hrest]
        exact List.mem_cons_self
      have hc' : c = '/' := by
        rcases List.mem_pair.mp (of_decide_eq_true hc) with heq | heq
        · exact heq
        · exact absurd (heq ▸ hmem) hno
      exact hall rest (hc' ▸ hrest)
  · intro hnone
    unfold destination OnOwnOrigin
    rw [hnone, Option.getD_none, show toScalars (jsString "/alerts") = '/' :: "alerts".toList by
      decide +kernel, resolve_slash_origin_iff]
    intro c rest hrest hc
    have hfirst : "alerts".toList.dropWhile isTabOrNewline = 'a' :: "lerts".toList := by
      decide +kernel
    rw [hfirst] at hrest
    cases hrest
    exact absurd hc (by decide)

end

def plainHost (s : List Char) : Option (List Char) :=
  if s.all (fun c => decide ('a'.toNat <= c.toNat ∧ c.toNat <= 'z'.toNat ∨ c = '.')) then some s
  else none

def consolePage : Url (List Char) :=
  { scheme := .https, host := "console.example".toList, path := ["login".toList] }

/-- The second string names the console after all. -/
theorem redirect_ownOrigin_console :
    OnOwnOrigin plainHost (fun _ => none) consolePage (jsString "/alerts\t?severity=high") ∧
      OnOwnOrigin plainHost (fun _ => none) consolePage (jsString "/\n/console.example/alerts") := by
  constructor
  · apply ((redirect_ownOrigin_iff plainHost (fun _ => none) consolePage
      { redirect := .string (jsString "/alerts\t?severity=high") }).left _
      (by decide +kernel)).mpr
    intro rest hrest
    have hhead : ((toScalars (jsString "/alerts\t?severity=high")).tail.dropWhile
        isTabOrNewline).head? = some 'a' := by decide +kernel
    rw [hrest, List.head?_cons] at hhead
    exact absurd hhead (by decide)
  · apply ((redirect_ownOrigin_iff plainHost (fun _ => none) consolePage
      { redirect := .string (jsString "/\n/console.example/alerts") }).left _
      (by decide +kernel)).mpr
    intro rest hrest
    have hleft : (toScalars (jsString "/\n/console.example/alerts")).tail.dropWhile isTabOrNewline =
        '/' :: "console.example/alerts".toList := by decide +kernel
    rw [hleft] at hrest
    cases hrest
    constructor
    · decide +kernel
    · decide +kernel
    · exact List.all_eq_true.mp (by decide +kernel)
    · decide +kernel

/-- The parser takes the tab away, and two slashes are left. -/
theorem not_redirect_ownOrigin :
    (resolve plainHost (fun _ => none) consolePage (toScalars (jsString "/\t/evil.example"))).map
        (fun u => u.host) = some "evil.example".toList ∧
      ¬ forall raw s, (validateSearch raw).redirect = some s ->
        OnOwnOrigin plainHost (fun _ => none) consolePage s := by
  have hhost : (resolve plainHost (fun _ => none) consolePage
      (toScalars (jsString "/\t/evil.example"))).map (fun u => u.host) =
        some "evil.example".toList := by decide +kernel
  refine ⟨hhost, ?_⟩
  intro hall
  rcases hall { redirect := .string (jsString "/\t/evil.example") } (jsString "/\t/evil.example")
    (by decide +kernel) with ⟨u, hu, horigin⟩
  rw [hu, Option.map_some] at hhost
  injection horigin with _ hrest
  injection hrest with hsame _
  rw [hsame] at hhost
  exact absurd hhost (by decide)

end Web
end LodelineManager
