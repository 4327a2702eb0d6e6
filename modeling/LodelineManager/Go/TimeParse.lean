import LodelineManager.Go.Time

/-!
# What {lit}`time.Parse` accepts for RFC 3339

The parser takes more than the layout writes: hours of one digit, a comma before the
fraction of a second, zones up to 24:60.  The text that {lit}`Format` writes without a
fraction is read as the second that the instant lies in, when the year has four digits.
-/

namespace LodelineManager
namespace Go

open Foundation Calendar

/-- {lit}`getnum`: two digits, or one where that is allowed. -/
def getnum (fixed : Bool) (s : List Char) : Option (Nat × List Char) :=
  match s with
  | [] => none
  | c :: rest =>
      if isDigit c then
        match rest with
        | d :: rest' =>
            if isDigit d then some (10 * digitValue c + digitValue d, rest')
            else if fixed then none
            else some (digitValue c, rest)
        | [] => if fixed then none else some (digitValue c, rest)
      else none

def getnumIn (lo hi : Nat) (fixed : Bool) (s : List Char) : Option (Nat × List Char) :=
  match getnum fixed s with
  | none => none
  | some (n, rest) => if lo <= n ∧ n <= hi then some (n, rest) else none

/-- {lit}`stdLongYear`. -/
def longYear (s : List Char) : Option (Nat × List Char) :=
  match s with
  | y1 :: y2 :: y3 :: y4 :: rest =>
      match readDigits [y1, y2, y3, y4] with
      | none => none
      | some year => some (year, rest)
  | _ => none

def skip (c : Char) (s : List Char) : Option (List Char) :=
  match s with
  | [] => none
  | d :: rest => if d = c then some rest else none

def fraction (s : List Char) : Nat × List Char :=
  match s with
  | c :: d :: rest =>
      if (c = '.' ∨ c = ',') ∧ isDigit d = true then
        let kept := ((d :: rest).takeWhile isDigit).take 9
        ((readDigits kept).getD 0 * 10 ^ (9 - kept.length), (d :: rest).dropWhile isDigit)
      else (0, s)
  | _ => (0, s)

/-- {lit}`stdISO8601ColonTZ`, as nanoseconds east of UTC. -/
def zone (s : List Char) : Option (Int × List Char) :=
  match s with
  | 'Z' :: rest => some (0, rest)
  | sign :: h1 :: h2 :: c :: m1 :: m2 :: rest =>
      if c = ':' ∧ (sign = '+' ∨ sign = '-') then
        match getnumIn 0 24 true [h1, h2], getnumIn 0 60 true [m1, m2] with
        | some (hr, _), some (mm, _) =>
            let offset : Int := (hr * 60 + mm) * minute
            some (if sign = '-' then -offset else offset, rest)
        | _, _ => none
      else none
  | _ => none

/-- {lit}`time.Parse` for {lit}`time.RFC3339` and {lit}`time.RFC3339Nano`, as an instant. -/
def parseTime (s : List Char) : Option Int := do
  let (year, s) <- longYear s
  let (month, s) <- getnumIn 1 12 true (<- skip '-' s)
  let (day, s) <- getnum true (<- skip '-' s)
  let (hour, s) <- getnumIn 0 23 false (<- skip 'T' s)
  let (min, s) <- getnumIn 0 59 true (<- skip ':' s)
  let (sec, s) <- getnumIn 0 59 true (<- skip ':' s)
  let (nsec, s) := fraction s
  let (offset, s) <- zone s
  if s = [] ∧ 1 <= day ∧ day <= (daysIn year month).toNat then
    some (Time.ofDate year month day hour min sec nsec - offset)
  else none

example : parseTime "2026-05-19T4:00:00,25+24:00".toList = some 1779076800250000000 := by decide

/-- A {lit}`time.Time` with the offset of its zone from UTC. -/
structure ZonedTime where
  instant : Int
  offset : Int
  deriving DecidableEq

/-- {lit}`time.Parse(time.RFC3339, s)` with the zone that the text names. -/
def parseZoned (s : List Char) : Option ZonedTime := do
  let (year, s) <- longYear s
  let (month, s) <- getnumIn 1 12 true (<- skip '-' s)
  let (day, s) <- getnum true (<- skip '-' s)
  let (hour, s) <- getnumIn 0 23 false (<- skip 'T' s)
  let (min, s) <- getnumIn 0 59 true (<- skip ':' s)
  let (sec, s) <- getnumIn 0 59 true (<- skip ':' s)
  let (nsec, s) := fraction s
  let (offset, s) <- zone s
  if s = [] ∧ 1 <= day ∧ day <= (daysIn year month).toNat then
    some { instant := Time.ofDate year month day hour min sec nsec - offset, offset := offset }
  else none

theorem bind_eq_map_bind {α β γ : Type} {o : Option α} {f : α -> Option γ} {g : α -> Option β}
    {φ : β -> γ} (h : forall a, f a = (g a).map φ) : o.bind f = (o.bind g).map φ := by
  cases o with
  | none => rfl
  | some a => exact h a

theorem bind_of_eq_some {α β : Type} {o : Option α} {a : α} {f : α -> Option β}
    (h : o = some a) : o.bind f = f a := by
  rw [h]
  rfl

theorem parseTime_eq (s : List Char) : parseTime s = (parseZoned s).map (·.instant) := by
  unfold parseTime parseZoned
  iterate 12
    apply bind_eq_map_bind
    intro r
  rcases r with ⟨offset, rest⟩
  show _ = Option.map ZonedTime.instant (if _ then _ else none)
  rw [apply_ite (Option.map ZonedTime.instant)]
  rfl

/-!
## Fields
-/

theorem getnum_padded {n : Nat} (h : n < 100) (fixed : Bool) (rest : List Char) :
    getnum fixed (padded 2 n ++ rest) = some (n, rest) := by
  have htens : n / 10 % 10 < 10 := Nat.mod_lt _ (by decide)
  have hones : n / 1 % 10 < 10 := Nat.mod_lt _ (by decide)
  show getnum fixed (Nat.digitChar (n / 10 % 10) :: Nat.digitChar (n / 1 % 10) :: rest) = _
  unfold getnum
  simp only [isDigit_digitChar htens, isDigit_digitChar hones, digitValue_digitChar htens,
    digitValue_digitChar hones, if_true]
  rw [Nat.div_one]
  have hn : 10 * (n / 10 % 10) + n % 10 = n := by omega
  rw [hn]

theorem getnumIn_padded {lo hi n : Nat} (h : n < 100) (hlo : lo <= n) (hhi : n <= hi)
    (fixed : Bool) (rest : List Char) :
    getnumIn lo hi fixed (padded 2 n ++ rest) = some (n, rest) := by
  unfold getnumIn
  rw [getnum_padded h]
  exact if_pos ⟨hlo, hhi⟩

theorem longYear_padded {n : Nat} (h : n < 10 ^ 4) (rest : List Char) :
    longYear (padded 4 n ++ rest) = some (n, rest) := by
  have hread := readDigits_padded 4 n
  rw [Nat.mod_eq_of_lt h] at hread
  show (match readDigits (padded 4 n) with
    | none => none
    | some year => some (year, rest)) = _
  rw [hread]

theorem skip_cons (c : Char) (rest : List Char) : skip c (c :: rest) = some rest := if_pos rfl

/-!
## Whole seconds
-/

def Time.toSecond (t : Int) : Int := t - t % second

theorem Time.toSecond_le (t : Int) : Time.toSecond t <= t := by
  unfold Time.toSecond second millisecond
  omega

theorem Time.toSecond_mono {a b : Int} (h : a <= b) : Time.toSecond a <= Time.toSecond b := by
  unfold Time.toSecond second millisecond
  omega

def localText (t : Int) : List Char :=
  appendInt (Time.date t).year 4 ++ '-' :: (appendInt (Time.date t).month 2 ++
    '-' :: (appendInt (Time.date t).day 2 ++ 'T' :: (appendInt (Time.hour t) 2 ++
      ':' :: (appendInt (Time.min t) 2 ++ ':' :: appendInt (Time.sec t) 2))))

theorem localText_append {t : Int} (h : Time.InRange t) (tail : List Char) :
    localText t ++ tail =
      padded 4 (Time.date t).year.toNat ++ '-' :: (padded 2 (Time.date t).month ++
        '-' :: (padded 2 (Time.date t).day ++ 'T' :: (padded 2 (Time.hour t) ++
          ':' :: (padded 2 (Time.min t) ++ ':' :: (padded 2 (Time.sec t) ++ tail))))) := by
  have hdate := Time.date_bounds t
  have hclock := Time.clock_bounds t
  have hyear : (Time.date t).year.toNat < 10 ^ 4 := by
    have := h.right
    omega
  unfold localText
  rw [appendInt_eq_padded (by decide) h.left hyear,
    appendInt_eq_padded (by decide) (by omega) (show (Time.date t).month < 10 ^ 2 by omega),
    appendInt_eq_padded (by decide) (by omega) (show (Time.date t).day < 10 ^ 2 by omega),
    appendInt_eq_padded (by decide) (by omega) (show Time.hour t < 10 ^ 2 by omega),
    appendInt_eq_padded (by decide) (by omega) (show Time.min t < 10 ^ 2 by omega),
    appendInt_eq_padded (by decide) (by omega) (show Time.sec t < 10 ^ 2 by omega)]
  simp only [List.append_assoc, List.cons_append]
  rfl

theorem parseZoned_localText {t offset : Int} {nsec : Nat} {tail rest : List Char}
    (h : Time.InRange t) (hfraction : fraction tail = (nsec, rest))
    (hzone : zone rest = some (offset, [])) :
    parseZoned (localText t ++ tail) =
      some { instant := t - Time.nsec t + nsec - offset, offset := offset } := by
  have hdate := Time.date_bounds t
  have hclock := Time.clock_bounds t
  have hyear : ((Time.date t).year.toNat : Int) = (Time.date t).year := Int.toNat_of_nonneg h.left
  have hyearLt : (Time.date t).year.toNat < 10 ^ 4 := by
    have := h.right
    omega
  have hmonth : (Time.date t).month < 100 := by omega
  have hday : (Time.date t).day < 100 := by omega
  have hhour : Time.hour t < 100 := by omega
  have hmin : Time.min t < 100 := by omega
  have hsec : Time.sec t < 100 := by omega
  have hinstant : Time.ofDate (Time.date t).year (Time.date t).month (Time.date t).day
      (Time.hour t) (Time.min t) (Time.sec t) nsec = t - Time.nsec t + nsec := by
    have hfields := Time.ofDate_fields t
    unfold Time.ofDate at hfields ⊢
    omega
  rw [localText_append h]
  unfold parseZoned
  refine (bind_of_eq_some (longYear_padded hyearLt _)).trans ?_
  refine (bind_of_eq_some (skip_cons '-' _)).trans ?_
  refine (bind_of_eq_some (getnumIn_padded hmonth hdate.left hdate.right.left _ _)).trans ?_
  refine (bind_of_eq_some (skip_cons '-' _)).trans ?_
  refine (bind_of_eq_some (getnum_padded hday _ _)).trans ?_
  refine (bind_of_eq_some (skip_cons 'T' _)).trans ?_
  refine (bind_of_eq_some (getnumIn_padded hhour (Nat.zero_le _) hclock.left _ _)).trans ?_
  refine (bind_of_eq_some (skip_cons ':' _)).trans ?_
  refine (bind_of_eq_some (getnumIn_padded hmin (Nat.zero_le _) hclock.right.left _ _)).trans ?_
  refine (bind_of_eq_some (skip_cons ':' _)).trans ?_
  refine (bind_of_eq_some
    (getnumIn_padded hsec (Nat.zero_le _) hclock.right.right.left _ _)).trans ?_
  show ((zone (fraction tail).2).bind fun z =>
    if z.2 = [] ∧ 1 <= (Time.date t).day ∧
        (Time.date t).day <= (daysIn (Time.date t).year.toNat (Time.date t).month).toNat then
      some (ZonedTime.mk (Time.ofDate (Time.date t).year.toNat (Time.date t).month
        (Time.date t).day (Time.hour t) (Time.min t) (Time.sec t) (fraction tail).1 - z.1) z.1)
    else none) = _
  rw [hfraction, hyear, hinstant]
  refine (bind_of_eq_some hzone).trans ?_
  exact if_pos ⟨rfl, hdate.right.right.left, hdate.right.right.right.left⟩

theorem formatRFC3339_eq_localText (t : Int) : formatRFC3339 t = localText t ++ ['Z'] := by
  unfold formatRFC3339 localText
  simp only [List.append_assoc, List.cons_append]

theorem parseTime_formatRFC3339 {t : Int} (h : Time.InRange t) :
    parseTime (formatRFC3339 t) = some (Time.toSecond t) := by
  have hnsec : (Time.nsec t : Int) = t % second := by
    unfold Time.nsec Time.nsOfDay nsPerDay second millisecond
    omega
  rw [parseTime_eq, formatRFC3339_eq_localText, @parseZoned_localText t 0 0 ['Z'] ['Z'] h rfl rfl, hnsec]
  show some (t - t % second + 0 - 0) = some (t - t % second)
  rw [Int.add_zero, Int.sub_zero]

/-!
## Fractions
-/

theorem fraction_digits {digits : List Char} {m : Nat} (hread : readDigits digits = some m)
    (hne : digits ≠ []) (hall : digits.all isDigit = true) (hlen : digits.length <= 9)
    {c : Char} (hc : isDigit c = false) (rest : List Char) :
    fraction ('.' :: (digits ++ c :: rest)) = (m * 10 ^ (9 - digits.length), c :: rest) := by
  cases digits with
  | nil => exact absurd rfl hne
  | cons d digits =>
      have hd : isDigit d = true := by
        rw [List.all_cons, Bool.and_eq_true] at hall
        exact hall.left
      have hall' : forall x, x ∈ d :: digits -> isDigit x = true := List.all_eq_true.mp hall
      have htake : (d :: (digits ++ c :: rest)).takeWhile isDigit = d :: digits := by
        rw [← List.cons_append, List.takeWhile_append_of_pos hall',
          List.takeWhile_cons_of_neg (ne_true_of_eq_false hc), List.append_nil]
      have hdrop : (d :: (digits ++ c :: rest)).dropWhile isDigit = c :: rest := by
        rw [← List.cons_append, List.dropWhile_append_of_pos hall',
          List.dropWhile_cons_of_neg (ne_true_of_eq_false hc)]
      show (if ('.' = '.' ∨ '.' = ',') ∧ isDigit d = true then
        ((readDigits (((d :: (digits ++ c :: rest)).takeWhile isDigit).take 9)).getD 0 *
            10 ^ (9 - (((d :: (digits ++ c :: rest)).takeWhile isDigit).take 9).length),
          (d :: (digits ++ c :: rest)).dropWhile isDigit)
        else _) = _
      rw [if_pos ⟨Or.inl rfl, hd⟩, htake, hdrop, List.take_of_length_le hlen, hread]
      rfl

theorem fraction_padded {n : Nat} (h : n < 10 ^ 9) {c : Char} (hc : isDigit c = false)
    (rest : List Char) : fraction ('.' :: (padded 9 n ++ c :: rest)) = (n, c :: rest) := by
  have hread : readDigits (padded 9 n) = some n := by
    rw [readDigits_padded, Nat.mod_eq_of_lt h]
  have hlen := padded_length 9 n
  have hne : padded 9 n ≠ [] := List.ne_nil_of_length_pos (by rw [hlen]; decide)
  rw [fraction_digits hread hne (padded_all_isDigit 9 n) (Nat.le_of_eq hlen) hc, hlen,
    Nat.sub_self, Nat.pow_zero, Nat.mul_one]

theorem formatUTC_eq_localText (t : Int) :
    formatUTC t = localText t ++ '.' :: (padded 9 (Time.nsec t) ++ ['Z']) := by
  unfold formatUTC localText
  simp only [List.append_assoc, List.cons_append]

theorem parseTime_formatUTC {t : Int} (h : Time.InRange t) :
    parseTime (formatUTC t) = some t := by
  have hfraction := fraction_padded (Time.clock_bounds t).right.right.right (c := 'Z') rfl []
  rw [parseTime_eq, formatUTC_eq_localText,
    @parseZoned_localText t 0 (Time.nsec t) _ ['Z'] h hfraction rfl]
  show some (t - Time.nsec t + Time.nsec t - 0) = some t
  rw [Int.sub_zero, Int.sub_add_cancel]

/-!
## Years of other lengths
-/

theorem lt_decimalWidthFrom {fuel u width : Nat} (hfuel : width <= fuel)
    (h : 10 ^ width <= u) : width < decimalWidthFrom fuel u := by
  induction width generalizing fuel u with
  | zero =>
      cases fuel with
      | zero => exact Nat.one_pos
      | succ fuel =>
          unfold decimalWidthFrom
          split
          · exact Nat.one_pos
          · exact Nat.succ_pos _
  | succ width ih =>
      cases fuel with
      | zero => cases hfuel
      | succ fuel =>
          have hpos : 1 <= 10 ^ width := Nat.one_le_two_pow.trans (Nat.pow_le_pow_left (by decide) _)
          rw [Nat.pow_succ] at h
          have hu : ¬ u < 10 := by omega
          unfold decimalWidthFrom
          rw [if_neg hu]
          exact Nat.succ_lt_succ (ih (Nat.le_of_succ_le_succ hfuel) (by omega))

theorem longYear_digits {digits : List Char} (hall : digits.all isDigit = true)
    (hlen : 5 <= digits.length) (rest : List Char) :
    (longYear (digits ++ rest)).bind (fun r => skip '-' r.2) = none := by
  match digits, hlen with
  | y1 :: y2 :: y3 :: y4 :: y5 :: more, _ =>
      have hy5 : isDigit y5 = true := by
        simp only [List.all_cons, Bool.and_eq_true] at hall
        exact hall.right.right.right.right.left
      have hne : y5 ≠ '-' := by
        intro heq
        rw [heq] at hy5
        exact absurd hy5 (by decide)
      show (longYear (y1 :: y2 :: y3 :: y4 :: (y5 :: (more ++ rest)))).bind _ = none
      unfold longYear
      simp only
      cases readDigits [y1, y2, y3, y4] with
      | none => rfl
      | some year => exact if_neg hne

theorem longYear_minus (rest : List Char) : longYear ('-' :: rest) = none := by
  match rest with
  | [] => rfl
  | [_] => rfl
  | [_, _] => rfl
  | y2 :: y3 :: y4 :: rest => rfl

theorem parseTime_of_no_year {s : List Char}
    (h : (longYear s).bind (fun r => skip '-' r.2) = none) : parseTime s = none := by
  unfold parseTime
  cases hyear : longYear s with
  | none => rfl
  | some r =>
      rw [hyear] at h
      have hskip : skip '-' r.2 = none := h
      show (skip '-' r.2).bind _ = none
      rw [hskip]
      rfl

theorem longYear_appendInt {t : Int} (h : ¬ Time.InRange t) (rest : List Char) :
    (longYear (appendInt (Time.date t).year 4 ++ rest)).bind (fun r => skip '-' r.2) = none := by
  by_cases hneg : (Time.date t).year < 0
  · have hminus : exists digits, appendInt (Time.date t).year 4 = '-' :: digits := by
      unfold appendInt
      rw [if_pos hneg]
      exact ⟨_, rfl⟩
    rcases hminus with ⟨digits, hdigits⟩
    rw [hdigits, List.cons_append, longYear_minus]
    rfl
  · have hlarge : 10 ^ 4 <= (Time.date t).year.natAbs := by
      unfold Time.InRange at h
      omega
    have hwidth : 4 < decimalWidth (Time.date t).year.natAbs := by
      apply lt_decimalWidthFrom _ hlarge
      exact Nat.le_trans (by decide) hlarge
    unfold appendInt
    rw [if_neg hneg, List.nil_append]
    apply longYear_digits
    · exact padded_all_isDigit _ _
    · rw [padded_length]
      exact Nat.le_trans hwidth (Nat.le_max_right 4 _)

theorem parseTime_formatRFC3339_none {t : Int} (h : ¬ Time.InRange t) :
    parseTime (formatRFC3339 t) = none :=
  parseTime_of_no_year (longYear_appendInt h _)

theorem parseTime_formatUTC_none {t : Int} (h : ¬ Time.InRange t) :
    parseTime (formatUTC t) = none :=
  parseTime_of_no_year (longYear_appendInt h _)

/-!
## The characters of the text
-/

theorem toNat_lt_of_isDigit {c : Char} (h : isDigit c = true) : c.toNat < 256 :=
  Nat.lt_trans (ascii_of_isDigit h) (by decide)

theorem mem_appendInt {x : Int} {width : Nat} {c : Char} (h : c ∈ appendInt x width) :
    c.toNat < 256 :=
  Nat.lt_trans (ascii_of_mem_appendInt h) (by decide)

theorem mem_formatRFC3339 {t : Int} {c : Char} (h : c ∈ formatRFC3339 t) : c.toNat < 256 := by
  unfold formatRFC3339 at h
  simp only [List.mem_append, List.mem_cons, List.not_mem_nil, or_false] at h
  rcases h with h | rfl | h | rfl | h | rfl | h | rfl | h | rfl | h | rfl
  all_goals first | exact mem_appendInt h | decide

theorem formatRFC3339_ne_nil (t : Int) : formatRFC3339 t ≠ [] := by
  unfold formatRFC3339
  exact List.append_ne_nil_of_right_ne_nil _ (List.cons_ne_nil _ _)

end Go
end LodelineManager
