import LodelineManager.Go.Numbers
import LodelineManager.Go.Quote
import LodelineManager.Go.RequestURI

/-!
# The access log

One line is printed for every request that the router has served, whatever the request and its
answer.  The line leaves the query out and quotes the path, so that what a client asks for can
neither put its secrets into these lines nor forge one of them.  Others print to the same
logger; what they print is not looked at here.
-/

namespace LodelineManager
namespace Server

open Foundation TextReaders Go

/-- The bytes of a token, as {lit}`net/http` checks them before it serves a request. -/
def isTokenByte (b : UInt8) : Bool :=
  isAlphanumeric b || decide (b ∈ ([33, 35, 36, 37, 38, 39, 42, 43, 45, 46, 94, 95, 96, 124, 126] :
    ByteString))

/-- A method that passes {lit}`validMethod`. -/
structure HTTPMethod where
  text : ByteString
  nonempty : text ≠ []
  token : text.all isTokenByte = true

def space : UInt8 := 32

def newline : UInt8 := 10

/-- The date and the time that {lit}`log` puts in front of a line, without the spaces behind
them. -/
structure LogStamp where
  date : ByteString
  time : ByteString
  blank : space ∉ date ∧ space ∉ time
  shown : date.all visible = true ∧ time.all visible = true

/-- A request that was served.  {lit}`http.FileServer` may have put a slash in front of its
path; {lit}`status` is what {lit}`ww.Status()` reports in the end, zero when nothing was
written, and {lit}`net/http` takes no code of four digits. -/
structure Served (authority : ByteString -> Bool) where
  stamp : LogStamp
  method : HTTPMethod
  target : ByteString
  parsed : ByteString
  isParsed : targetPath authority method.text target = some parsed
  fromFiles : Bool
  status : Fin 1000

/-- {lit}`r.URL.Path` when the request has been served. -/
def Served.path {authority : ByteString -> Bool} (s : Served authority) : ByteString :=
  if s.fromFiles = true ∧ s.parsed.head? ≠ some slash then slash :: s.parsed else s.parsed

/-- {lit}`%d` -/
def decimal (n : Nat) : ByteString := bytesOf (String.ofList (appendInt n 1))

section

variable {authority : ByteString -> Bool} (table : Char -> Bool)

/-- {lit}`log.Printf("http: method=%s path=%q status=%d", ...)` -/
def accessLine (s : Served authority) : ByteString :=
  (s.stamp.date ++ [space]) ++ ((s.stamp.time ++ [space]) ++ (bytesOf "http: method=" ++
    ((s.method.text ++ [space]) ++ (bytesOf "path=" ++ (appendQuote table s.path ++
      (bytesOf " status=" ++ (decimal s.status ++ [newline])))))))

def accessLog (served : List (Served authority)) : ByteString :=
  served.flatMap (accessLine table)

end

/-!
## Reading the log
-/

/-- What a line tells. -/
structure LogEntry where
  date : ByteString
  time : ByteString
  method : ByteString
  path : ByteString
  status : Int
  deriving DecidableEq

def Served.entry {authority : ByteString -> Bool} (s : Served authority) : LogEntry where
  date := s.stamp.date
  time := s.stamp.time
  method := s.method.text
  path := s.path
  status := s.status

def readNumber (text : ByteString) : Reader UInt8 Int :=
  fun s => (atoi text).map (fun n => (n, s))

def readLine : Reader UInt8 LogEntry :=
  (textBefore space).bind fun date =>
  (textBefore space).bind fun time =>
  (fixed (bytesOf "http: method=")).bind fun _ =>
  (textBefore space).bind fun method =>
  (fixed (bytesOf "path=")).bind fun _ =>
  readQuoted.bind fun path =>
  (fixed (bytesOf " status=")).bind fun _ =>
  (textBefore newline).bind fun status =>
  (readNumber status).map fun n => ⟨date, time, method, path, n⟩

def Served.withoutQuery {authority : ByteString -> Bool} (s : Served authority) :
    Served authority :=
  { s with
    target := (cut questionMark s.target).1
    isParsed := targetPath_cut s.isParsed }

/-!
## Lines
-/

section

variable {table : Char -> Bool} {authority : ByteString -> Bool}

theorem not_mem_of_visible {text : ByteString} (h : text.all visible = true) {b : UInt8}
    (hb : visible b = false) : b ∉ text := by
  intro hmem
  exact Bool.false_ne_true (hb.symm.trans (List.all_eq_true.mp h b hmem))

theorem visible_decimal (n : Nat) : (decimal n).all visible = true := by
  have hdigits := padded_all_isDigit (max 1 (decimalWidth n)) n
  unfold decimal appendInt
  rw [if_neg (Int.not_lt.mpr (Int.natCast_nonneg n)), List.nil_append, Int.natAbs_natCast,
    bytesOf_ofList, List.all_map, List.all_eq_true]
  intro c hc
  have hdigit := List.all_eq_true.mp hdigits c hc
  rcases (Bool.and_eq_true _ _).mp hdigit with ⟨hlow, hhigh⟩
  have hlow' : 48 <= c.toNat := of_decide_eq_true hlow
  have hhigh' : c.toNat <= 57 := of_decide_eq_true hhigh
  show visible (UInt8.ofNat c.toNat) = true
  unfold visible
  rw [UInt8.toNat_ofNat_of_lt' (toNat_lt_of_isDigit hdigit), Bool.and_eq_true, decide_eq_true_eq,
    decide_eq_true_eq]
  omega

theorem readsAs_decimal (n : Fin 1000) : ReadsAs (readNumber (decimal n)) [] (n : Int) := by
  intro rest
  unfold readNumber decimal
  rw [atoi_appendInt, if_pos]
  · rfl
  · omega

theorem visible_of_isTokenByte {b : UInt8} (h : isTokenByte b = true) : visible b = true := by
  have hall : forall n : Fin 256, isTokenByte (UInt8.ofNat n.val) = true ->
      visible (UInt8.ofNat n.val) = true := by decide +kernel
  have hb := hall ⟨b.toNat, b.toNat_lt⟩
  rw [UInt8.ofNat_toNat] at hb
  exact hb h

theorem visible_method (m : HTTPMethod) : m.text.all visible = true := by
  rw [List.all_eq_true]
  intro b hb
  exact visible_of_isTokenByte (List.all_eq_true.mp m.token b hb)

theorem space_not_mem_method (m : HTTPMethod) : space ∉ m.text := by
  intro hmem
  have htoken := List.all_eq_true.mp m.token space hmem
  exact absurd htoken (by decide)

theorem readsAs_accessLine (s : Served authority) :
    ReadsAs readLine (accessLine table s) s.entry := by
  have hnewline : newline ∉ decimal s.status :=
    not_mem_of_visible (visible_decimal s.status) (by decide)
  refine (readsAs_textBefore s.stamp.blank.left).bind ?_
  refine (readsAs_textBefore s.stamp.blank.right).bind ?_
  refine (readsAs_fixed (bytesOf "http: method=")).bind ?_
  refine (readsAs_textBefore (space_not_mem_method s.method)).bind ?_
  refine (readsAs_fixed (bytesOf "path=")).bind ?_
  refine (readsAs_appendQuote table s.path).bind ?_
  refine (readsAs_fixed (bytesOf " status=")).bind ?_
  exact (readsAs_textBefore hnewline).check ((readsAs_decimal s.status).map _)

theorem accessLine_ne_nil (s : Served authority) : accessLine table s ≠ [] := by
  unfold accessLine
  simp

theorem accessLine_congr {s s' : Served authority} (h : s.entry = s'.entry) :
    accessLine table s = accessLine table s' := by
  have hdate := congrArg LogEntry.date h
  have htime := congrArg LogEntry.time h
  have hmethod := congrArg LogEntry.method h
  have hpath := congrArg LogEntry.path h
  have hstatus : (s.status : Nat) = s'.status := Int.ofNat.inj (congrArg LogEntry.status h)
  simp only [Served.entry] at hdate htime hmethod hpath
  unfold accessLine
  rw [hdate, htime, hmethod, hpath, hstatus]

theorem accessLog_congr {served served' : List (Served authority)}
    (h : served.map Served.entry = served'.map Served.entry) :
    accessLog table served = accessLog table served' := by
  induction served generalizing served' with
  | nil => rw [List.map_eq_nil_iff.mp h.symm]
  | cons s rest ih =>
      cases served' with
      | nil => cases h
      | cons s' rest' =>
          rcases List.cons.inj h with ⟨hhead, htail⟩
          show accessLine table s ++ accessLog table rest =
            accessLine table s' ++ accessLog table rest'
          rw [accessLine_congr hhead, ih htail]

theorem accessLine_visible (s : Served authority) :
    exists line, accessLine table s = line ++ [newline] ∧ line.all visible = true := by
  refine ⟨(s.stamp.date ++ [space]) ++ ((s.stamp.time ++ [space]) ++ (bytesOf "http: method=" ++
    ((s.method.text ++ [space]) ++ (bytesOf "path=" ++ (appendQuote table s.path ++
      (bytesOf " status=" ++ decimal s.status)))))), ?_, ?_⟩
  · unfold accessLine
    simp only [List.append_assoc]
  · have hspace : [space].all visible = true := by decide
    have hmethod : (bytesOf "http: method=").all visible = true := by decide
    have hpath : (bytesOf "path=").all visible = true := by decide
    have hstatus : (bytesOf " status=").all visible = true := by decide
    simp only [List.all_append, hspace, hmethod, hpath, hstatus, s.stamp.shown, visible_method,
      visible_appendQuote, visible_decimal, Bool.and_self]

theorem readValues_accessLog (served : List (Served authority)) :
    readValues readLine (accessLog table served) = some (served.map Served.entry) := by
  apply readValues_flatMap
  · intro s _
    exact readsAs_accessLine s
  · intro s _
    exact accessLine_ne_nil s

end

/-- The lines give back the stamp, the method, the path and the status of every request in the
order in which they ended, each on a line of its own: no request can forge one.  They say
nothing more, and nothing of a query. -/
theorem access_log_reads_back (table : Char -> Bool) {authority : ByteString -> Bool}
    (served : List (Served authority)) :
    readValues readLine (accessLog table served) = some (served.map Served.entry) ∧
    (forall s : Served authority, exists line, accessLine table s = line ++ [newline] ∧
      line.all visible = true) ∧
    accessLog table (served.map Served.withoutQuery) = accessLog table served ∧
    forall served' : List (Served authority), accessLog table served = accessLog table served' <->
      served.map Served.entry = served'.map Served.entry := by
  refine ⟨readValues_accessLog served, accessLine_visible, ?_, ?_⟩
  · unfold accessLog
    rw [List.flatMap_map]
    rfl
  · intro served'
    constructor
    · intro h
      have hread : readValues readLine (accessLog table served) = some (served.map Served.entry) :=
        readValues_accessLog served
      rw [h, readValues_accessLog served'] at hread
      exact (Option.some.inj hread).symm
    · exact accessLog_congr

end Server
end LodelineManager
