import LodelineManager.Foundation.Decimal
import LodelineManager.Go.URL

/-!
# Texts of query parameters

{lit}`strings.TrimSpace` and {lit}`strconv.Atoi` on byte strings.
-/

namespace LodelineManager
namespace Go

open Foundation

/-!
## Trimming
-/

/-- The code points of {lit}`unicode.IsSpace` in UTF-8. -/
def spaces : List ByteString :=
  [[9], [10], [11], [12], [13], [32], [194, 133], [194, 160], [225, 154, 128],
    [226, 128, 128], [226, 128, 129], [226, 128, 130], [226, 128, 131], [226, 128, 132],
    [226, 128, 133], [226, 128, 134], [226, 128, 135], [226, 128, 136], [226, 128, 137],
    [226, 128, 138], [226, 128, 168], [226, 128, 169], [226, 128, 175], [226, 129, 159],
    [227, 128, 128]]

def dropAll (texts : List ByteString) : Nat -> ByteString -> ByteString
  | 0, s => s
  | fuel + 1, s =>
      match texts.find? (fun x => x.isPrefixOf s) with
      | none => s
      | some x => dropAll texts fuel (s.drop x.length)

def trimLeft (s : ByteString) : ByteString := dropAll spaces s.length s

def trimRight (s : ByteString) : ByteString :=
  (dropAll (spaces.map List.reverse) s.length s.reverse).reverse

def trimSpace (s : ByteString) : ByteString := trimRight (trimLeft s)

/-- There is no space at either end. -/
def Trimmed (s : ByteString) : Prop :=
  forall x, x ∈ spaces -> ¬ x <+: s ∧ ¬ x <:+ s

theorem spaces_ne_nil {x : ByteString} (h : x ∈ spaces) : x ≠ [] := by
  have hall : forall x, x ∈ spaces -> x ≠ [] := by decide
  exact hall x h

section

variable {texts : List ByteString}

theorem dropAll_suffix (fuel : Nat) (s : ByteString) : dropAll texts fuel s <:+ s := by
  induction fuel generalizing s with
  | zero => exact List.suffix_refl s
  | succ fuel ih =>
      unfold dropAll
      split
      · exact List.suffix_refl s
      · rename_i x _
        exact (ih _).trans (List.drop_suffix x.length s)

theorem dropAll_of_none {s : ByteString} (h : forall x, x ∈ texts -> ¬ x <+: s) (fuel : Nat) :
    dropAll texts fuel s = s := by
  cases fuel with
  | zero => rfl
  | succ fuel =>
      have hnone : texts.find? (fun x => x.isPrefixOf s) = none := by
        apply List.find?_eq_none.mpr
        intro x hx hfront
        exact h x hx (List.isPrefixOf_iff_prefix.mp hfront)
      unfold dropAll
      rw [hnone]

theorem not_prefix_dropAll (hne : forall x, x ∈ texts -> x ≠ []) {fuel : Nat} {s : ByteString}
    (hfuel : s.length <= fuel) {x : ByteString} (hx : x ∈ texts) :
    ¬ x <+: dropAll texts fuel s := by
  induction fuel generalizing s with
  | zero =>
      have hs : s = [] := List.length_eq_zero_iff.mp (Nat.le_zero.mp hfuel)
      rw [hs]
      intro hfront
      exact hne x hx (List.prefix_nil.mp hfront)
  | succ fuel ih =>
      unfold dropAll
      split
      · rename_i hnone
        intro hfront
        exact List.find?_eq_none.mp hnone x hx (List.isPrefixOf_iff_prefix.mpr hfront)
      · rename_i y hfind
        apply ih
        have hy := hne y (List.mem_of_find?_eq_some hfind)
        have hpos := List.length_pos_iff.mpr hy
        rw [List.length_drop]
        omega

end

theorem trimmed_trimSpace (s : ByteString) : Trimmed (trimSpace s) := by
  intro x hx
  have hleft : ¬ x <+: trimLeft s :=
    not_prefix_dropAll (fun x hx => spaces_ne_nil hx) (Nat.le_refl _) hx
  have hreverse : forall y, y ∈ spaces.map List.reverse -> y ≠ [] := by
    intro y hy
    rcases List.mem_map.mp hy with ⟨z, hz, hzy⟩
    rw [← hzy]
    exact fun hnil => spaces_ne_nil hz (List.reverse_eq_nil_iff.mp hnil)
  constructor
  · intro hfront
    have hpart : trimSpace s <+: trimLeft s := by
      have hsuffix : dropAll (spaces.map List.reverse) (trimLeft s).length
          (trimLeft s).reverse <:+ (trimLeft s).reverse := dropAll_suffix _ _
      apply List.reverse_suffix.mp
      unfold trimSpace trimRight
      rw [List.reverse_reverse]
      exact hsuffix
    exact hleft (hfront.trans hpart)
  · intro hsuffix
    have hnot : ¬ x.reverse <+:
        dropAll (spaces.map List.reverse) (trimLeft s).length (trimLeft s).reverse :=
      not_prefix_dropAll hreverse (Nat.le_of_eq List.length_reverse)
        (List.mem_map_of_mem hx)
    apply hnot
    have hback := List.reverse_prefix.mpr hsuffix
    unfold trimSpace trimRight at hback
    rw [List.reverse_reverse] at hback
    exact hback

theorem trimSpace_of_trimmed {s : ByteString} (h : Trimmed s) : trimSpace s = s := by
  have hleft : trimLeft s = s := dropAll_of_none (fun x hx => (h x hx).left) _
  have hright : dropAll (spaces.map List.reverse) s.length s.reverse = s.reverse := by
    apply dropAll_of_none
    intro y hy hfront
    rcases List.mem_map.mp hy with ⟨x, hx, hxy⟩
    rw [← hxy] at hfront
    exact (h x hx).right (List.reverse_prefix.mp hfront)
  unfold trimSpace trimRight
  rw [hleft, hright, List.reverse_reverse]

theorem mem_of_mem_trimSpace {c : UInt8} {s : ByteString} (h : c ∈ trimSpace s) : c ∈ s := by
  unfold trimSpace trimRight at h
  have hmid := (dropAll_suffix _ _).subset (List.mem_reverse.mp h)
  exact (dropAll_suffix _ _).subset (List.mem_reverse.mp hmid)

/-!
## Splitting
-/

theorem not_mem_of_mem_splitOn {c : UInt8} {s part : ByteString} (h : part ∈ s.splitOn c) :
    c ∉ part := by
  induction s generalizing part with
  | nil =>
      rw [List.mem_singleton.mp h]
      exact List.not_mem_nil
  | cons x s ih =>
      rw [List.splitOn_cons_eq_if_modifyHead] at h
      split at h
      · rcases List.mem_cons.mp h with heq | hrest
        · rw [heq]
          exact List.not_mem_nil
        · exact ih hrest
      · rename_i hx
        cases hparts : s.splitOn c with
        | nil =>
            rw [hparts] at h
            cases h
        | cons first rest =>
            rw [hparts] at h ih
            rcases List.mem_cons.mp h with heq | hrest
            · rw [heq, List.mem_cons, not_or]
              constructor
              · exact fun hc => hx (beq_iff_eq.mpr hc.symm)
              · exact ih List.mem_cons_self
            · exact ih (List.mem_cons_of_mem _ hrest)

/-!
## Integers
-/

/-- {lit}`strconv.Atoi` on 64 bits: an optional sign and at least one digit. -/
def atoi (s : ByteString) : Option Int :=
  let negative := decide (s.head? = some 45)
  let digits : ByteString := if s.head? = some 45 ∨ s.head? = some 43 then s.drop 1 else s
  if digits = [] then none
  else
    match readDigits digits.text.toList with
    | none => none
    | some n =>
        if negative then (if n <= 2 ^ 63 then some (-(n : Int)) else none)
        else if n < 2 ^ 63 then some (n : Int) else none

example : trimSpace [32, 9, 194, 160, 97, 32, 98, 227, 128, 128] = [97, 32, 98] := by decide

end Go
end LodelineManager
