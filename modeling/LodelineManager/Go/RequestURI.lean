import LodelineManager.Go.Router
import Mathlib.Data.List.TakeWhile

/-!
# The target of a request

{lit}`net/http` gets the path of a request from its request line by
{lit}`url.ParseRequestURI`.  A target is a path, or a whole URL as a proxy sends it, whose
authority is no part of the path; a query is cut off before anything is unescaped.
-/

namespace LodelineManager
namespace Go

open Foundation PercentCoding

def colon : UInt8 := 58

def questionMark : UInt8 := 63

def isLetter (b : UInt8) : Bool := (97 <= b && b <= 122) || (65 <= b && b <= 90)

def isSchemeByte (b : UInt8) : Bool := isAlphanumeric b || decide (b ∈ bytesOf "+-.")

/-- {lit}`stringContainsCTLByte` -/
def containsCTL (s : ByteString) : Bool := s.any (fun b => decide (b < 32) || decide (b = 127))

/-- {lit}`getScheme`: the scheme and what follows it; a colon in front is an error. -/
def getScheme (s : ByteString) : Option (ByteString × ByteString) :=
  let scheme := s.takeWhile isSchemeByte
  match s.dropWhile isSchemeByte with
  | [] => some ([], s)
  | b :: rest =>
      if b = colon then
        match scheme with
        | [] => none
        | first :: _ => if isLetter first then some (scheme, rest) else some ([], s)
      else some ([], s)

/-- What {lit}`parse` does with a request once scheme and query are off, as far as the path
goes: a URL without a slash behind its scheme is opaque and has no path. -/
def pathBehind (authority : ByteString -> Bool) (scheme rest : ByteString) :
    Option ByteString :=
  if rest.head? ≠ some slash then if scheme = [] then none else some []
  else if scheme ≠ [] ∧ rest.take 2 = [slash, slash] then
    if authority ((rest.drop 2).takeWhile (fun b => decide (b ≠ slash))) then
      pathUnescape ((rest.drop 2).dropWhile (fun b => decide (b ≠ slash)))
    else none
  else pathUnescape rest

/-- {lit}`url.ParseRequestURI`, its {lit}`Path`; {lit}`parseAuthority` passes or refuses. -/
def parseRequestURI (authority : ByteString -> Bool) (raw : ByteString) : Option ByteString :=
  if containsCTL raw || decide (raw = []) then none
  else if raw = bytesOf "*" then some raw
  else
    (getScheme raw).bind (fun p => pathBehind authority p.1 (cut questionMark p.2).1)

/-- The path of a request: {lit}`CONNECT` may name an authority alone. -/
def targetPath (authority : ByteString -> Bool) (method target : ByteString) :
    Option ByteString :=
  parseRequestURI authority
    (if method = bytesOf "CONNECT" ∧ target.head? ≠ some slash then bytesOf "http://" ++ target
    else target)

example : targetPath (fun _ => true) (bytesOf "GET") (bytesOf "http://host/api/health?x=1") =
    some (bytesOf "/api/health") := by decide +kernel

/-!
## The query makes no difference
-/

theorem cut_cut (sep : UInt8) (s : ByteString) : (cut sep (cut sep s).1).1 = (cut sep s).1 := by
  apply List.takeWhile_eq_self_iff.mpr
  intro b hb
  have hne := List.mem_takeWhile_imp (show b ∈ s.takeWhile (fun c => decide (c ≠ sep)) from hb)
  exact hne

theorem takeWhile_cut {p : UInt8 -> Bool} {sep : UInt8} (hsep : p sep = false) (s : ByteString) :
    (cut sep s).1.takeWhile p = s.takeWhile p := by
  induction s with
  | nil => rfl
  | cons b rest ih =>
      unfold cut at ih ⊢
      by_cases hb : b = sep
      · subst hb
        simp [hsep]
      · have hkeep : decide (b ≠ sep) = true := decide_eq_true hb
        simp only [List.takeWhile_cons, hkeep, if_true]
        simp only at ih
        rw [ih]

theorem dropWhile_cut {p : UInt8 -> Bool} {sep : UInt8} (hsep : p sep = false) (s : ByteString) :
    (cut sep s).1.dropWhile p = (cut sep (s.dropWhile p)).1 := by
  induction s with
  | nil => rfl
  | cons b rest ih =>
      unfold cut at ih ⊢
      simp only at ih
      by_cases hb : b = sep
      · subst hb
        simp [hsep]
      · have hkeep : decide (b ≠ sep) = true := decide_eq_true hb
        simp only [List.takeWhile_cons, hkeep, if_true, List.dropWhile_cons]
        split
        · exact ih
        · simp only [List.takeWhile_cons, hkeep, if_true]

theorem getScheme_cut (s : ByteString) :
    getScheme (cut questionMark s).1 =
      (getScheme s).map (fun p => (p.1, (cut questionMark p.2).1)) := by
  have hmark : isSchemeByte questionMark = false := by decide
  unfold getScheme
  simp only [takeWhile_cut hmark, dropWhile_cut hmark]
  cases hrest : s.dropWhile isSchemeByte with
  | nil => rfl
  | cons b rest =>
      by_cases hb : b = questionMark
      · subst hb
        have hcut : (cut questionMark (questionMark :: rest)).1 = [] := by
          simp [cut]
        rw [hcut]
        show some _ = Option.map _ (if questionMark = colon then _ else some ([], s))
        rw [if_neg (by decide)]
        rfl
      · have hcut : (cut questionMark (b :: rest)).1 = b :: (cut questionMark rest).1 := by
          simp [cut, hb]
        rw [hcut]
        dsimp only
        split
        · split
          · rfl
          · split <;> rfl
        · rfl

theorem containsCTL_cut {s : ByteString} (sep : UInt8) (h : containsCTL s = false) :
    containsCTL (cut sep s).1 = false := by
  unfold containsCTL at h ⊢
  rw [List.any_eq_false] at h ⊢
  exact fun b hb => h b ((List.takeWhile_sublist _).subset hb)

theorem parseRequestURI_cut {authority : ByteString -> Bool} {raw path : ByteString}
    (h : parseRequestURI authority raw = some path) :
    parseRequestURI authority (cut questionMark raw).1 = some path := by
  unfold parseRequestURI at h
  split at h
  · cases h
  · rename_i hshape
    rw [Bool.or_eq_true, not_or, Bool.not_eq_true, decide_eq_true_eq] at hshape
    split at h
    · rename_i hstar
      cases h
      subst hstar
      rfl
    · rcases Option.bind_eq_some_iff.mp h with ⟨⟨scheme, after⟩, hscheme, hpath⟩
      have hcut := getScheme_cut raw
      rw [hscheme, Option.map_some] at hcut
      -- what is left is a path of its own, not nothing and not a star
      have hleft : forall s, getScheme s = some ([], s) -> s.head? ≠ some slash ->
          (cut questionMark raw).1 ≠ s := by
        intro s hs hslash heq
        rw [heq, hs] at hcut
        cases hcut
        unfold pathBehind at hpath
        rw [if_pos hslash, if_pos rfl] at hpath
        cases hpath
      unfold parseRequestURI
      have hempty : (cut questionMark raw).1 ≠ [] := hleft [] rfl (by decide)
      have hstar : (cut questionMark raw).1 ≠ bytesOf "*" := hleft _ (by decide) (by decide)
      rw [containsCTL_cut questionMark hshape.left, decide_eq_false hempty, Bool.or_false,
        if_neg Bool.false_ne_true, if_neg hstar, hcut, Option.bind_some, cut_cut]
      exact hpath

theorem targetPath_cut {authority : ByteString -> Bool} {method target path : ByteString}
    (h : targetPath authority method target = some path) :
    targetPath authority method (cut questionMark target).1 = some path := by
  have hhead : target.head? = some slash -> (cut questionMark target).1.head? = some slash := by
    intro hslash
    cases target with
    | nil => cases hslash
    | cons b rest =>
        cases hslash
        rfl
  have hback : (cut questionMark target).1.head? = some slash -> target.head? = some slash := by
    intro hslash
    cases target with
    | nil => cases hslash
    | cons b rest =>
        unfold cut at hslash
        rw [List.takeWhile_cons] at hslash
        split at hslash
        · exact hslash
        · cases hslash
  have hprefix : forall s, (cut questionMark (bytesOf "http://" ++ s)).1 =
      bytesOf "http://" ++ (cut questionMark s).1 := by
    intro s
    exact List.takeWhile_append_of_pos (List.all_eq_true.mp (by decide +kernel))
  unfold targetPath at h ⊢
  split at h
  · rename_i hconnect
    rw [if_pos ⟨hconnect.left, fun hslash => hconnect.right (hback hslash)⟩, ← hprefix]
    exact parseRequestURI_cut h
  · rename_i hother
    have hother' : ¬ (method = bytesOf "CONNECT" ∧
        (cut questionMark target).1.head? ≠ some slash) :=
      fun hconnect => hother ⟨hconnect.left, fun hslash => hconnect.right (hhead hslash)⟩
    rw [if_neg hother']
    exact parseRequestURI_cut h

end Go
end LodelineManager
