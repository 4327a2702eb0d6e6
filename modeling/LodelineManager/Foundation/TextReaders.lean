import Mathlib.Data.List.Basic

/-!
# Reading a text back

A reader takes something from the front of a text and leaves the rest.  That it reads a value
from a text whatever comes behind is the property that composes: texts that are read so can
follow one another without marks between them, and no two values share one.
-/

namespace LodelineManager
namespace Foundation
namespace TextReaders

universe u v w

variable {symbol : Type u} {value : Type v} {other : Type w}

def Reader (symbol : Type u) (value : Type v) := List symbol -> Option (value × List symbol)

/-- The text is read as the value, whatever follows it. -/
def ReadsAs (r : Reader symbol value) (text : List symbol) (x : value) : Prop :=
  forall rest, r (text ++ rest) = some (x, rest)

def Reader.bind (r : Reader symbol value) (next : value -> Reader symbol other) :
    Reader symbol other :=
  fun s => (r s).bind (fun p => next p.1 p.2)

def Reader.map (r : Reader symbol value) (f : value -> other) : Reader symbol other :=
  fun s => (r s).map (fun p => (f p.1, p.2))

section

variable [DecidableEq symbol]

def fixed (text : List symbol) : Reader symbol Unit :=
  fun s => if text.isPrefixOf s then some ((), s.drop text.length) else none

def textBefore (stop : symbol) : Reader symbol (List symbol)
  | [] => none
  | b :: rest =>
      if b = stop then some ([], rest)
      else (textBefore stop rest).map (fun p => (b :: p.1, p.2))

def unitsBeforeWithin (stop : symbol) (r : Reader symbol value) : Nat -> Reader symbol (List value)
  | 0, _ => none
  | n + 1, s =>
      if s.head? = some stop then some ([], s.drop 1)
      else (r s).bind (fun p => (unitsBeforeWithin stop r n p.2).map (fun q => (p.1 :: q.1, q.2)))

def unitsBefore (stop : symbol) (r : Reader symbol value) : Reader symbol (List value) :=
  fun s => unitsBeforeWithin stop r s.length s

end

def readValuesWithin (r : Reader symbol value) : Nat -> List symbol -> Option (List value)
  | _, [] => some []
  | 0, _ => none
  | n + 1, s => (r s).bind (fun p => (readValuesWithin r n p.2).map (fun xs => p.1 :: xs))

def readValues (r : Reader symbol value) (s : List symbol) : Option (List value) :=
  readValuesWithin r s.length s

/-!
## What is read
-/

section

variable {r : Reader symbol value} {text text' : List symbol} {x : value} {y : other}

theorem ReadsAs.map (h : ReadsAs r text x) (f : value -> other) : ReadsAs (r.map f) text (f x) := by
  intro rest
  unfold Reader.map
  rw [h rest]
  rfl

theorem ReadsAs.bind {next : value -> Reader symbol other} (h : ReadsAs r text x)
    (hnext : ReadsAs (next x) text' y) : ReadsAs (r.bind next) (text ++ text') y := by
  intro rest
  unfold Reader.bind
  rw [List.append_assoc, h]
  exact hnext rest

theorem ReadsAs.check {next : value -> Reader symbol other} (h : ReadsAs r text x)
    (hnext : ReadsAs (next x) [] y) : ReadsAs (r.bind next) text y := by
  have hread := h.bind hnext
  rw [List.append_nil] at hread
  exact hread

variable [DecidableEq symbol] {stop : symbol}

theorem readsAs_fixed (text : List symbol) : ReadsAs (fixed text) text () := by
  intro rest
  have hprefix : text.isPrefixOf (text ++ rest) = true :=
    List.isPrefixOf_iff_prefix.mpr (List.prefix_append text rest)
  unfold fixed
  rw [if_pos hprefix, List.drop_left]

theorem readsAs_textBefore (h : stop ∉ text) : ReadsAs (textBefore stop) (text ++ [stop]) text := by
  intro rest
  induction text with
  | nil => exact if_pos rfl
  | cons b text ih =>
      rcases not_or.mp (fun hmem => h (List.mem_cons.mpr hmem)) with ⟨hne, htail⟩
      show (if b = stop then some ([], (text ++ [stop]) ++ rest)
        else (textBefore stop ((text ++ [stop]) ++ rest)).map (fun p => (b :: p.1, p.2))) = _
      rw [if_neg (Ne.symm hne), ih htail]
      rfl

/-!
## One after another

Items are written one after another, and the reader finds what each stands for.
-/

universe t

variable {item : Type t} {write : item -> List symbol} {mean : item -> value}

theorem unitsBeforeWithin_flatMap {xs : List item}
    (hread : forall x, x ∈ xs -> ReadsAs r (write x) (mean x))
    (hhead : forall x, x ∈ xs -> exists b tail, write x = b :: tail ∧ b ≠ stop) {n : Nat}
    (hfuel : xs.length < n) (rest : List symbol) :
    unitsBeforeWithin stop r n (xs.flatMap write ++ stop :: rest) = some (xs.map mean, rest) := by
  induction xs generalizing n with
  | nil =>
      cases n with
      | zero => cases hfuel
      | succ n => exact if_pos rfl
  | cons x xs ih =>
      cases n with
      | zero => cases hfuel
      | succ n =>
          rcases List.forall_mem_cons.mp hread with ⟨hx, hxs⟩
          rcases List.forall_mem_cons.mp hhead with ⟨⟨b, tail, hwrite, hne⟩, hheads⟩
          have hstop : ((x :: xs).flatMap write ++ stop :: rest).head? ≠ some stop := by
            rw [List.flatMap_cons, hwrite]
            exact fun h => hne (Option.some.inj h)
          rw [unitsBeforeWithin, if_neg hstop, List.flatMap_cons, List.append_assoc, hx,
            Option.bind_some, ih hxs hheads (Nat.lt_of_succ_lt_succ hfuel)]
          rfl

omit [DecidableEq symbol] in
theorem length_le_flatMap {xs : List item} (hne : forall x, x ∈ xs -> write x ≠ []) :
    xs.length <= (xs.flatMap write).length := by
  induction xs with
  | nil => exact Nat.le_refl 0
  | cons x xs ih =>
      rcases List.forall_mem_cons.mp hne with ⟨hx, hxs⟩
      have hpos := List.length_pos_iff.mpr hx
      have hrest := ih hxs
      rw [List.flatMap_cons, List.length_append, List.length_cons]
      omega

theorem readsAs_unitsBefore {xs : List item}
    (hread : forall x, x ∈ xs -> ReadsAs r (write x) (mean x))
    (hhead : forall x, x ∈ xs -> exists b tail, write x = b :: tail ∧ b ≠ stop) :
    ReadsAs (unitsBefore stop r) (xs.flatMap write ++ [stop]) (xs.map mean) := by
  intro rest
  have hne : forall x, x ∈ xs -> write x ≠ [] := by
    intro x hx
    rcases hhead x hx with ⟨b, tail, hwrite, _⟩
    rw [hwrite]
    exact List.cons_ne_nil b tail
  have hlen := length_le_flatMap hne
  unfold unitsBefore
  rw [List.append_assoc, List.singleton_append]
  apply unitsBeforeWithin_flatMap hread hhead
  rw [List.length_append, List.length_cons]
  omega

omit [DecidableEq symbol] in
theorem readValues_flatMap {xs : List item}
    (hread : forall x, x ∈ xs -> ReadsAs r (write x) (mean x))
    (hne : forall x, x ∈ xs -> write x ≠ []) :
    readValues r (xs.flatMap write) = some (xs.map mean) := by
  have hwithin : forall n, xs.length <= n ->
      readValuesWithin r n (xs.flatMap write) = some (xs.map mean) := by
    induction xs with
    | nil =>
        intro n _
        cases n <;> rfl
    | cons x xs ih =>
        intro n hfuel
        cases n with
        | zero => cases hfuel
        | succ n =>
            rcases List.forall_mem_cons.mp hread with ⟨hx, hxs⟩
            rcases List.forall_mem_cons.mp hne with ⟨hxne, hxsne⟩
            rcases List.exists_cons_of_ne_nil hxne with ⟨b, tail, hwrite⟩
            have hrest := ih hxs hxsne n (Nat.le_of_succ_le_succ hfuel)
            have hhead := hx (xs.flatMap write)
            rw [hwrite, List.cons_append] at hhead
            rw [List.flatMap_cons, hwrite, List.cons_append]
            show (r (b :: (tail ++ xs.flatMap write))).bind
              (fun p => (readValuesWithin r n p.2).map (fun ys => p.1 :: ys)) = _
            rw [hhead, Option.bind_some, hrest]
            rfl
  exact hwithin _ (length_le_flatMap hne)

end

end TextReaders
end Foundation
end LodelineManager
