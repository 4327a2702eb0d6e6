import LodelineManager.Go.Ascii

/-!
# URLSearchParams

The pairs that the console puts into a query string, and what {lit}`net/url` reads from the
string.  The console keeps other bytes than {lit}`QueryEscape` does, but none that means
something in a query.
-/

namespace LodelineManager
namespace Web

open Foundation PercentCoding Go

/-- The pairs of {lit}`URLSearchParams`, in their order. -/
abbrev SearchParams := List (String × String)

/-- What {lit}`application/x-www-form-urlencoded` leaves alone. -/
def isFormKept (c : UInt8) : Bool := isAlphanumeric c || decide (c ∈ bytesOf "*-._")

namespace SearchParams

/-- {lit}`set`: the first pair of the name gets the value, and its other pairs are removed. -/
def set (name value : String) : SearchParams -> SearchParams
  | [] => [(name, value)]
  | p :: rest =>
      if p.1 = name then (name, value) :: rest.filter (fun q => decide (q.1 ≠ name))
      else p :: set name value rest

def append (params : SearchParams) (name value : String) : SearchParams :=
  params ++ [(name, value)]

/-- {lit}`getAll`. -/
def getAll (params : SearchParams) (name : String) : List String :=
  (params.filter (fun p => decide (p.1 = name))).map Prod.snd

def pairBytes (p : String × String) : ByteString × ByteString := (utf8 p.1, utf8 p.2)

/-- {lit}`toString`, as the bytes of the request. -/
def toQuery (params : SearchParams) : ByteString :=
  List.intercalate [38] ((params.map pairBytes).map (pairText isFormKept))

example : toQuery [("host_id", "a,b c"), ("host_id", "~*")] =
    bytesOf "host_id=a%2Cb+c&host_id=%7E*" := by decide +kernel

/-!
## Values of a name
-/

theorem getAll_cons (p : String × String) (rest : SearchParams) (name : String) :
    getAll (p :: rest) name = if p.1 = name then p.2 :: getAll rest name else getAll rest name := by
  unfold getAll
  by_cases hname : p.1 = name
  · have hkeep : decide (p.1 = name) = true := decide_eq_true hname
    rw [List.filter_cons, if_pos hkeep, if_pos hname, List.map_cons]
  · have hkeep : ¬ decide (p.1 = name) = true := fun h => hname (of_decide_eq_true h)
    rw [List.filter_cons, if_neg hkeep, if_neg hname]

theorem getAll_append (params : SearchParams) (name value name' : String) :
    (params.append name value).getAll name' =
      params.getAll name' ++ if name = name' then [value] else [] := by
  induction params with
  | nil => exact getAll_cons (name, value) [] name'
  | cons p rest ih =>
      show getAll (p :: append rest name value) name' = _
      rw [getAll_cons, getAll_cons, ih]
      split
      · rfl
      · rfl

theorem getAll_without (params : SearchParams) {name name' : String} (h : name' ≠ name) :
    getAll (params.filter (fun q => decide (q.1 ≠ name))) name' = getAll params name' := by
  unfold getAll
  rw [List.filter_filter]
  congr 1
  apply List.filter_congr
  intro p _
  by_cases hp : p.1 = name'
  · rw [decide_eq_true hp, Bool.true_and]
    exact decide_eq_true (hp ▸ h)
  · rw [decide_eq_false hp, Bool.false_and]

theorem getAll_without_self (params : SearchParams) (name : String) :
    getAll (params.filter (fun q => decide (q.1 ≠ name))) name = [] := by
  unfold getAll
  rw [List.filter_filter]
  apply List.map_eq_nil_iff.mpr
  apply List.filter_eq_nil_iff.mpr
  intro p _ hboth
  rcases (Bool.and_eq_true _ _).mp hboth with ⟨hsame, hother⟩
  exact of_decide_eq_true hother (of_decide_eq_true hsame)

theorem getAll_set (params : SearchParams) (name value : String) :
    getAll (params.set name value) name = [value] := by
  induction params with
  | nil => exact (getAll_cons (name, value) [] name).trans (if_pos rfl)
  | cons p rest ih =>
      by_cases hp : p.1 = name
      · have hset : set name value (p :: rest) =
            (name, value) :: rest.filter (fun q => decide (q.1 ≠ name)) := if_pos hp
        rw [hset, getAll_cons, if_pos rfl, getAll_without_self]
      · have hset : set name value (p :: rest) = p :: set name value rest := if_neg hp
        rw [hset, getAll_cons, if_neg hp, ih]

theorem getAll_set_ne (params : SearchParams) {name name' : String} (value : String)
    (h : name' ≠ name) : getAll (params.set name value) name' = getAll params name' := by
  induction params with
  | nil => exact (getAll_cons (name, value) [] name').trans (if_neg (fun heq => h heq.symm))
  | cons p rest ih =>
      by_cases hp : p.1 = name
      · have hset : set name value (p :: rest) =
            (name, value) :: rest.filter (fun q => decide (q.1 ≠ name)) := if_pos hp
        have hne : ¬ p.1 = name' := fun heq => h (heq.symm.trans hp)
        rw [hset, getAll_cons, getAll_cons, if_neg (fun heq => h heq.symm), if_neg hne,
          getAll_without rest h]
      · have hset : set name value (p :: rest) = p :: set name value rest := if_neg hp
        rw [hset, getAll_cons, getAll_cons, ih]

/-!
## Reading the query string
-/

theorem queryAlphabet_isFormKept : QueryAlphabet isFormKept := by
  constructor <;> decide

theorem values_toQuery (params : SearchParams) (name : String) :
    (parseQuery params.toQuery).values (utf8 name) = (params.getAll name).map utf8 := by
  have hnames : params.filter ((fun p => decide (p.1 = utf8 name)) ∘ pairBytes) =
      params.filter (fun p => decide (p.1 = name)) := by
    apply List.filter_congr
    intro p _
    exact decide_eq_decide.mpr ⟨fun h => utf8_injective h, fun h => congrArg utf8 h⟩
  unfold toQuery getAll
  rw [Values.values_parseQuery queryAlphabet_isFormKept, List.filter_map, hnames, List.map_map,
    List.map_map]
  rfl

end SearchParams

end Web
end LodelineManager
