import LodelineManager.Foundation.Decimal
import Mathlib.Data.List.TakeWhile
import Mathlib.Data.String.Basic

/-!
# Addresses as text

{lit}`net.ParseIP`, {lit}`IP.IsLoopback`, {lit}`net.JoinHostPort` and
{lit}`net.SplitHostPort`.  An address is its eight 16-bit groups; an IPv4 address has the
mapped form.
-/

namespace LodelineManager
namespace Go

open Foundation

abbrev IP := List Nat

/-- {lit}`parseIPv4Fields` from some character on: the fields before it, the value of the
octet it is in and the digits of that octet. -/
def parseIPv4From : List Char -> List Nat -> Nat -> Nat -> Option (List Nat)
  | [], fields, val, _ => if fields.length < 3 then none else some (fields ++ [val])
  | c :: rest, fields, val, digLen =>
      if isDigit c then
        if digLen = 1 ∧ val = 0 then none
        else if 255 < 10 * val + digitValue c then none
        else parseIPv4From rest fields (10 * val + digitValue c) (digLen + 1)
      else if c = '.' then
        if digLen = 0 ∨ rest = [] then none
        else if fields.length = 3 then none
        else parseIPv4From rest (fields ++ [val]) 0 0
      else none

def parseIPv4 (s : List Char) : Option IP :=
  match parseIPv4From s [] 0 0 with
  | some [a, b, c, d] => some [0, 0, 0, 0, 0, 0xffff, 256 * a + b, 256 * c + d]
  | _ => none

def isHexDigit (c : Char) : Bool :=
  isDigit c || (decide ('a' <= c) && decide (c <= 'f')) || (decide ('A' <= c) && decide (c <= 'F'))

def hexValue (c : Char) : Nat :=
  if isDigit c then digitValue c
  else if 'a' <= c then c.toNat - 'a'.toNat + 10
  else c.toNat - 'A'.toNat + 10

/-- The loop of {lit}`parseIPv6` with so many groups to go: the rest of the text, the groups
before it, and the place of the ellipsis when there was one. -/
def parseIPv6From : Nat -> List Char -> IP -> Option Nat ->
    Option (List Char × IP × Option Nat)
  | 0, s, groups, ellipsis => some (s, groups, ellipsis)
  | n + 1, s, groups, ellipsis =>
      let digits := s.takeWhile isHexDigit
      let acc := digits.foldl (fun v c => 16 * v + hexValue c) 0
      if digits = [] ∨ 4 < digits.length then none
      else
        match s.dropWhile isHexDigit with
        | [] => some ([], groups ++ [acc], ellipsis)
        | '.' :: _ =>
            -- an IPv4 address in place of the last two groups
            if ellipsis = none ∧ groups.length ≠ 6 then none
            else if 8 < groups.length + 2 then none
            else
              match parseIPv4From s [] 0 0 with
              | some [a, b, c, d] => some ([], groups ++ [256 * a + b, 256 * c + d], ellipsis)
              | _ => none
        | ':' :: [] => none
        | ':' :: ':' :: rest =>
            if ellipsis.isSome then none
            else if rest = [] then some ([], groups ++ [acc], some (groups.length + 1))
            else parseIPv6From n rest (groups ++ [acc]) (some (groups.length + 1))
        | ':' :: rest => parseIPv6From n rest (groups ++ [acc]) ellipsis
        | _ => none

/-- What {lit}`parseIPv6` makes of the end of its loop. -/
def expandIPv6 : List Char × IP × Option Nat -> Option IP
  | ([], groups, ellipsis) =>
      if groups.length < 8 then
        ellipsis.map (fun e =>
          groups.take e ++ List.replicate (8 - groups.length) 0 ++ groups.drop e)
      else if ellipsis.isSome then none
      else some groups
  | (_ :: _, _, _) => none

/-- A zone makes {lit}`net.ParseIP` fail, whether it is empty or not. -/
def parseIPv6 (s : List Char) : Option IP :=
  if '%' ∈ s then none
  else
    match s with
    | ':' :: ':' :: rest =>
        if rest = [] then some (List.replicate 8 0)
        else (parseIPv6From 8 rest [] (some 0)).bind expandIPv6
    | _ => (parseIPv6From 8 s [] none).bind expandIPv6

/-- {lit}`net.ParseIP`: the first of dot, colon and percent sign decides the family. -/
def parseIP (ip : String) : Option IP :=
  match ip.toList.find? (fun c => c = '.' || c = ':' || c = '%') with
  | some '.' => parseIPv4 ip.toList
  | some ':' => parseIPv6 ip.toList
  | _ => none

def IP.isLoopback (ip : IP) : Bool :=
  match ip with
  | [0, 0, 0, 0, 0, 0xffff, high, _] => decide (high / 256 = 127)
  | ip => decide (ip = [0, 0, 0, 0, 0, 0, 0, 1])

example : (parseIP "127.0.0.1").map IP.isLoopback = some true := by decide

example : parseIP "2001:db8::1" = some [0x2001, 0xdb8, 0, 0, 0, 0, 0, 1] := by decide

example : parseIP "1.2.3.04" = none := by decide

/-- {lit}`bytealg.LastIndexByteString`. -/
def lastIndexOf (c : Char) : List Char -> Option Nat
  | [] => none
  | d :: rest =>
      match lastIndexOf c rest with
      | some i => some (i + 1)
      | none => if d = c then some 0 else none

def joinHostPort (host port : List Char) : List Char :=
  if ':' ∈ host then '[' :: (host ++ ']' :: ':' :: port) else host ++ ':' :: port

/-- {lit}`net.SplitHostPort`; all its errors are one.  The port starts after the last
colon, and a bracket at the start must be closed right before it. -/
def splitHostPort (hostport : List Char) : Option (List Char × List Char) :=
  match lastIndexOf ':' hostport with
  | none => none
  | some i =>
      if hostport.head? = some '[' then
        match hostport.idxOf? ']' with
        | none => none
        | some e =>
            if e + 1 ≠ i then none
            else if '[' ∈ hostport.drop 1 ∨ ']' ∈ hostport.drop (e + 1) then none
            else some ((hostport.take e).drop 1, hostport.drop (i + 1))
      else if ':' ∈ hostport.take i then none
      else if '[' ∈ hostport ∨ ']' ∈ hostport then none
      else some (hostport.take i, hostport.drop (i + 1))

/-!
## Splitting what was joined
-/

theorem lastIndexOf_none {c : Char} {s : List Char} (h : c ∉ s) : lastIndexOf c s = none := by
  induction s with
  | nil => rfl
  | cons d rest ih =>
      rw [List.mem_cons, not_or] at h
      rw [lastIndexOf, ih h.right]
      exact if_neg (fun hd => h.left hd.symm)

theorem lastIndexOf_append (c : Char) (front : List Char) {back : List Char} (h : c ∉ back) :
    lastIndexOf c (front ++ c :: back) = some front.length := by
  induction front with
  | nil =>
      show lastIndexOf c (c :: back) = some 0
      rw [lastIndexOf, lastIndexOf_none h]
      exact if_pos rfl
  | cons d rest ih =>
      show lastIndexOf c (d :: (rest ++ c :: back)) = _
      rw [lastIndexOf, ih]
      rfl

theorem idxOf?_append {c : Char} (front back : List Char) (h : c ∉ front) :
    (front ++ c :: back).idxOf? c = some front.length := by
  induction front with
  | nil =>
      rw [List.nil_append, List.idxOf?_cons, if_pos (beq_self_eq_true c)]
      rfl
  | cons d rest ih =>
      rw [List.mem_cons, not_or] at h
      rw [List.cons_append, List.idxOf?_cons, if_neg (by simpa using fun hd => h.left hd.symm),
        ih h.right]
      rfl

theorem drop_append_cons (front : List Char) (c : Char) (back : List Char) :
    (front ++ c :: back).drop (front.length + 1) = back := by
  rw [List.drop_append, List.drop_eq_nil_of_le (Nat.le_succ _), Nat.add_sub_cancel_left]
  rfl

theorem not_mem_append_cons {c d : Char} {front back : List Char} (hfront : c ∉ front)
    (hd : c ≠ d) (hback : c ∉ back) : c ∉ front ++ d :: back := by
  rw [List.mem_append, List.mem_cons, not_or, not_or]
  exact ⟨hfront, hd, hback⟩

theorem splitHostPort_bracketed {host port : List Char} (hopen : '[' ∉ host) (hclose : ']' ∉ host)
    (hcolon : ':' ∉ port) (hportOpen : '[' ∉ port) (hportClose : ']' ∉ port) :
    splitHostPort ('[' :: (host ++ ']' :: ':' :: port)) = some (host, port) := by
  have hlast := lastIndexOf_append ':' ('[' :: (host ++ [']'])) hcolon
  have hidx := idxOf?_append (c := ']') ('[' :: host) (':' :: port) (by simp [hclose])
  have hdrop := drop_append_cons ('[' :: (host ++ [']'])) ':' port
  have htake : ('[' :: host ++ ']' :: ':' :: port).take ('[' :: host).length = '[' :: host :=
    List.take_left
  have hrest := drop_append_cons ('[' :: host) ']' (':' :: port)
  have hjoined : '[' :: (host ++ [']']) ++ ':' :: port = '[' :: host ++ ']' :: ':' :: port := by
    rw [List.cons_append, List.append_assoc]
    rfl
  have hlength : ('[' :: (host ++ [']'])).length = ('[' :: host).length + 1 := by
    simp
  rw [hjoined, hlength] at hlast hdrop
  have hopen' : '[' ∉ ('[' :: host ++ ']' :: ':' :: port).drop 1 := by
    refine not_mem_append_cons hopen (by decide) ?_
    rw [List.mem_cons, not_or]
    exact ⟨by decide, hportOpen⟩
  have hclose' : ']' ∉ ('[' :: host ++ ']' :: ':' :: port).drop (('[' :: host).length + 1) := by
    rw [hrest, List.mem_cons, not_or]
    exact ⟨by decide, hportClose⟩
  have hhead : ('[' :: host ++ ']' :: ':' :: port).head? = some '[' := rfl
  show splitHostPort ('[' :: host ++ ']' :: ':' :: port) = _
  unfold splitHostPort
  rw [hlast]
  show (if _ then _ else _) = _
  rw [if_pos hhead, hidx]
  show (if _ then _ else _) = _
  rw [if_neg (fun h => h rfl), if_neg (not_or.mpr ⟨hopen', hclose'⟩), htake, hdrop]
  rfl

theorem splitHostPort_plain {host port : List Char} (hopen : '[' ∉ host) (hclose : ']' ∉ host)
    (hhost : ':' ∉ host) (hcolon : ':' ∉ port) (hportOpen : '[' ∉ port) (hportClose : ']' ∉ port) :
    splitHostPort (host ++ ':' :: port) = some (host, port) := by
  have hopen' : '[' ∉ host ++ ':' :: port := not_mem_append_cons hopen (by decide) hportOpen
  have hclose' : ']' ∉ host ++ ':' :: port := not_mem_append_cons hclose (by decide) hportClose
  have hhead : (host ++ ':' :: port).head? ≠ some '[' := by
    intro h
    exact hopen' (List.mem_of_mem_head? h)
  unfold splitHostPort
  rw [lastIndexOf_append ':' host hcolon]
  show (if _ then _ else _) = _
  rw [if_neg hhead, List.take_left, if_neg hhost, if_neg (not_or.mpr ⟨hopen', hclose'⟩),
    drop_append_cons]

theorem split_join {host port : List Char} (hopen : '[' ∉ host) (hclose : ']' ∉ host)
    (hcolon : ':' ∉ port) (hportOpen : '[' ∉ port) (hportClose : ']' ∉ port) :
    splitHostPort (joinHostPort host port) = some (host, port) := by
  unfold joinHostPort
  by_cases hhost : ':' ∈ host
  · rw [if_pos hhost]
    exact splitHostPort_bracketed hopen hclose hcolon hportOpen hportClose
  · rw [if_neg hhost]
    exact splitHostPort_plain hopen hclose hhost hcolon hportOpen hportClose

/-!
## A bare address has no port
-/

theorem not_mem_of_parseIPv4From {s : List Char} {fields fields' : List Nat} {val digLen : Nat}
    (h : parseIPv4From s fields val digLen = some fields') : ':' ∉ s := by
  induction s generalizing fields val digLen with
  | nil => exact List.not_mem_nil
  | cons c rest ih =>
      rw [List.mem_cons, not_or]
      unfold parseIPv4From at h
      by_cases hdigit : isDigit c = true
      · rw [if_pos hdigit] at h
        split at h
        · cases h
        · split at h
          · cases h
          · refine ⟨?_, ih h⟩
            intro hc
            rw [← hc] at hdigit
            revert hdigit
            decide
      · rw [if_neg hdigit] at h
        by_cases hdot : c = '.'
        · rw [if_pos hdot] at h
          split at h
          · cases h
          · split at h
            · cases h
            · refine ⟨?_, ih h⟩
              rw [hdot]
              decide
        · rw [if_neg hdot] at h
          cases h

theorem count_dropWhile_isHexDigit (s : List Char) :
    (s.dropWhile isHexDigit).count ':' = s.count ':' := by
  have hzero : (s.takeWhile isHexDigit).count ':' = 0 := by
    rw [List.count_eq_zero]
    intro hmem
    exact absurd (List.mem_takeWhile_imp hmem) (by decide)
  rw [← List.takeWhile_append_dropWhile (p := isHexDigit) (l := s), List.count_append, hzero,
    Nat.zero_add, List.takeWhile_append_dropWhile]

theorem count_of_parseIPv6From {n : Nat} {s s' : List Char} {groups groups' : IP}
    {ellipsis ellipsis' : Option Nat}
    (h : parseIPv6From n s groups ellipsis = some (s', groups', ellipsis')) :
    groups'.length <= groups.length + s.count ':' + 2 ∧
      (ellipsis = none -> ellipsis' ≠ none -> 2 <= s.count ':') := by
  induction n generalizing s groups ellipsis with
  | zero =>
      cases h
      constructor
      · exact by omega
      · intro hnone hsome
        exact absurd hnone hsome
  | succ n ih =>
      have hcount := count_dropWhile_isHexDigit s
      simp only [parseIPv6From] at h
      split at h
      · cases h
      · split at h
        · cases h
          rw [List.length_append, List.length_singleton]
          constructor
          · exact by omega
          · intro hnone hsome
            exact absurd hnone hsome
        · split at h
          · cases h
          · split at h
            · cases h
            · split at h
              · cases h
                rw [List.length_append]
                constructor
                · exact Nat.add_le_add_right (Nat.le_add_right _ _) 2
                · intro hnone hsome
                  exact absurd hnone hsome
              · cases h
        · cases h
        · rename_i rest heq
          rw [heq, List.count_cons_self, List.count_cons_self] at hcount
          split at h
          · cases h
          · split at h
            · cases h
              rw [List.length_append, List.length_singleton]
              exact ⟨by omega, fun _ _ => by omega⟩
            · have hrest := (ih h).left
              rw [List.length_append, List.length_singleton] at hrest
              exact ⟨by omega, fun _ _ => by omega⟩
        · rename_i rest _ _ heq
          rw [heq, List.count_cons_self] at hcount
          rcases ih h with ⟨hlength, hellipsis⟩
          rw [List.length_append, List.length_singleton] at hlength
          constructor
          · exact by omega
          · intro hnone hsome
            have htwo := hellipsis hnone hsome
            omega
        · cases h

theorem two_colons_of_parseIPv6 {s : List Char} {ip : IP} (h : parseIPv6 s = some ip) :
    2 <= s.count ':' := by
  unfold parseIPv6 at h
  split at h
  · cases h
  · split at h
    · rw [List.count_cons_self, List.count_cons_self]
      omega
    · rcases Option.bind_eq_some_iff.mp h with ⟨⟨s', groups, ellipsis⟩, hparse, hexpand⟩
      rcases count_of_parseIPv6From hparse with ⟨hlength, hellipsis⟩
      cases s' with
      | cons c rest => cases hexpand
      | nil =>
          by_cases hshort : groups.length < 8
          · rw [expandIPv6, if_pos hshort] at hexpand
            apply hellipsis rfl
            intro hnone
            rw [hnone] at hexpand
            cases hexpand
          · rw [List.length_nil] at hlength
            omega

theorem head_of_parseIPv6 {s : List Char} {ip : IP} (h : parseIPv6 s = some ip) :
    s.head? ≠ some '[' := by
  intro hhead
  rcases List.head?_eq_some_iff.mp hhead with ⟨rest, hs⟩
  subst hs
  unfold parseIPv6 at h
  split at h
  · cases h
  · cases h

theorem lastIndexOf_of_mem {c : Char} {s : List Char} (h : c ∈ s) :
    exists i, lastIndexOf c s = some i := by
  induction s with
  | nil => cases h
  | cons d rest ih =>
      rw [lastIndexOf]
      cases hrest : lastIndexOf c rest with
      | some i => exact ⟨i + 1, rfl⟩
      | none =>
          rcases List.mem_cons.mp h with hd | hmem
          · exact ⟨0, if_pos hd.symm⟩
          · rcases ih hmem with ⟨i, hi⟩
            rw [hrest] at hi
            cases hi

theorem mem_take_lastIndexOf {c : Char} {s : List Char} (h : 2 <= s.count c) :
    exists i, lastIndexOf c s = some i ∧ c ∈ s.take i := by
  induction s with
  | nil => cases h
  | cons d rest ih =>
      by_cases hd : d = c
      · subst hd
        rw [List.count_cons_self] at h
        rcases lastIndexOf_of_mem (List.count_pos_iff.mp (by omega : 0 < rest.count d)) with ⟨i, hi⟩
        refine ⟨i + 1, by rw [lastIndexOf, hi], ?_⟩
        rw [List.take_succ_cons]
        exact List.mem_cons_self
      · rw [List.count_cons_of_ne hd] at h
        rcases ih h with ⟨i, hi, hmem⟩
        refine ⟨i + 1, by rw [lastIndexOf, hi], ?_⟩
        rw [List.take_succ_cons]
        exact List.mem_cons_of_mem d hmem

theorem splitHostPort_of_parseIP {s : String} {ip : IP} (h : parseIP s = some ip) :
    splitHostPort s.toList = none := by
  unfold parseIP at h
  split at h
  · have hno : ':' ∉ s.toList := by
      unfold parseIPv4 at h
      split at h
      · rename_i hfields
        exact not_mem_of_parseIPv4From hfields
      · cases h
    unfold splitHostPort
    rw [lastIndexOf_none hno]
  · rcases mem_take_lastIndexOf (two_colons_of_parseIPv6 h) with ⟨i, hi, hmem⟩
    unfold splitHostPort
    rw [hi]
    show (if _ then _ else _) = _
    rw [if_neg (head_of_parseIPv6 h), if_pos hmem]
  · cases h

end Go
end LodelineManager
