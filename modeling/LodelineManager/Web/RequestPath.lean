import LodelineManager.Go.Router

/-!
# Paths that the browser asks for

The API client writes ids into paths with {lit}`encodeURIComponent`.  The URL parser of the
browser leaves the escapes alone but takes dot segments out of the path.
-/

namespace LodelineManager
namespace Web

open Foundation PercentCoding Go

/-- The bytes that {lit}`encodeURIComponent` leaves alone. -/
def isUnescaped (c : UInt8) : Bool := isAlphanumeric c || decide (c ∈ bytesOf "-_.!~*'()")

def encodeURIComponent (s : ByteString) : ByteString := encode isUnescaped s

def isSingleDot (s : ByteString) : Bool :=
  decide (s ∈ [bytesOf ".", bytesOf "%2e", bytesOf "%2E"])

def isDoubleDot (s : ByteString) : Bool :=
  decide (s ∈ [bytesOf "..", bytesOf ".%2e", bytesOf ".%2E", bytesOf "%2e.", bytesOf "%2E.",
    bytesOf "%2e%2e", bytesOf "%2e%2E", bytesOf "%2E%2e", bytesOf "%2E%2E"])

def isDots (s : ByteString) : Bool := isSingleDot s || isDoubleDot s

def pathState : List ByteString -> List ByteString -> List ByteString
  | out, [] => out
  | out, s :: rest =>
      if isDots s then
        let out := if isDoubleDot s then out.dropLast else out
        if rest = [] then out ++ [[]] else pathState out rest
      else pathState (out ++ [s]) rest

def requestPath (base ids : List ByteString) : ByteString :=
  pathOf (pathState [] (base ++ ids.map encodeURIComponent))

/-!
## Dot segments
-/

theorem pathState_of_no_dots {segments : List ByteString}
    (h : forall s, s ∈ segments -> isDots s = false) (out : List ByteString) :
    pathState out segments = out ++ segments := by
  induction segments generalizing out with
  | nil => exact (List.append_nil out).symm
  | cons s rest ih =>
      have hs : isDots s = false := h s List.mem_cons_self
      rw [pathState, hs]
      simp only [Bool.false_eq_true, if_false]
      rw [ih (fun x hx => h x (List.mem_cons_of_mem _ hx)), List.append_assoc]
      rfl

theorem pathState_cons_dots {s : ByteString} (hs : isDots s = true) (out rest : List ByteString) :
    exists out', out'.Sublist out ∧
      ((rest = [] ∧ pathState out (s :: rest) = out' ++ [[]]) ∨
        (rest ≠ [] ∧ pathState out (s :: rest) = pathState out' rest)) := by
  refine ⟨if isDoubleDot s then out.dropLast else out, ?_, ?_⟩
  · split
    · exact List.dropLast_sublist out
    · exact List.Sublist.refl out
  · rw [pathState, hs]
    by_cases hrest : rest = []
    · exact Or.inl ⟨hrest, by simp only [if_true, if_pos hrest]⟩
    · exact Or.inr ⟨hrest, by simp only [if_true, if_neg hrest]⟩

theorem pathState_length_le (out segments : List ByteString) :
    (pathState out segments).length <= out.length + segments.length := by
  induction segments generalizing out with
  | nil => exact Nat.le_refl _
  | cons s rest ih =>
      cases hs : isDots s with
      | false =>
          rw [pathState, hs]
          have h := ih (out ++ [s])
          rw [List.length_append, List.length_singleton] at h
          rw [List.length_cons]
          simp only [Bool.false_eq_true, if_false]
          omega
      | true =>
          rcases pathState_cons_dots hs out rest with ⟨out', hsub, ⟨_, hend⟩ | ⟨_, hmore⟩⟩
          · have hle := hsub.length_le
            rw [hend, List.length_append, List.length_singleton, List.length_cons]
            omega
          · have hle := hsub.length_le
            have h := ih out'
            rw [hmore, List.length_cons]
            omega

theorem pathState_of_dots (out : List ByteString) {segments : List ByteString} {s : ByteString}
    (hs : s ∈ segments) (hdots : isDots s = true) :
    (pathState out segments).length < out.length + segments.length ∨
      (pathState out segments).getLast? = some [] := by
  induction segments generalizing out with
  | nil => cases hs
  | cons t rest ih =>
      cases ht : isDots t with
      | true =>
          rcases pathState_cons_dots ht out rest with ⟨out', hsub, ⟨_, hend⟩ | ⟨_, hmore⟩⟩
          · apply Or.inr
            rw [hend, List.getLast?_concat]
          · apply Or.inl
            have hle := hsub.length_le
            have h := pathState_length_le out' rest
            rw [hmore, List.length_cons]
            omega
      | false =>
          have hrest : s ∈ rest := by
            rcases List.mem_cons.mp hs with heq | hmem
            · rw [heq, ht] at hdots
              cases hdots
            · exact hmem
          rw [pathState, ht]
          simp only [Bool.false_eq_true, if_false]
          rcases ih (out ++ [t]) hrest with hless | hlast
          · apply Or.inl
            rw [List.length_append, List.length_singleton] at hless
            rw [List.length_cons]
            omega
          · exact Or.inr hlast

theorem mem_pathState {out segments : List ByteString} {x : ByteString}
    (h : x ∈ pathState out segments) : x ∈ out ∨ x ∈ segments ∨ x = [] := by
  induction segments generalizing out with
  | nil => exact Or.inl h
  | cons s rest ih =>
      cases hs : isDots s with
      | false =>
          rw [pathState, hs] at h
          simp only [Bool.false_eq_true, if_false] at h
          rcases ih h with hout | hrest | hnil
          · rcases List.mem_append.mp hout with hold | hnew
            · exact Or.inl hold
            · rw [List.mem_singleton.mp hnew]
              exact Or.inr (Or.inl List.mem_cons_self)
          · exact Or.inr (Or.inl (List.mem_cons_of_mem _ hrest))
          · exact Or.inr (Or.inr hnil)
      | true =>
          rcases pathState_cons_dots hs out rest with ⟨out', hsub, ⟨_, hend⟩ | ⟨_, hmore⟩⟩
          · rw [hend] at h
            rcases List.mem_append.mp h with hold | hnew
            · exact Or.inl (hsub.subset hold)
            · exact Or.inr (Or.inr (List.mem_singleton.mp hnew))
          · rw [hmore] at h
            rcases ih h with hout | hrest | hnil
            · exact Or.inl (hsub.subset hout)
            · exact Or.inr (Or.inl (List.mem_cons_of_mem _ hrest))
            · exact Or.inr (Or.inr hnil)

/-!
## Ids in paths
-/

theorem isUnescaped_percent : isUnescaped percent = false := by decide

theorem isUnescaped_slash : isUnescaped slash = false := by decide

theorem isAlphanumeric_kept {b : UInt8} (h : isAlphanumeric b = true) :
    isUnescaped b = true ∧ keeps .path b = true := by
  unfold isUnescaped keeps shouldEscape
  rw [h]
  exact ⟨rfl, rfl⟩

theorem isDots_encodeURIComponent (id : ByteString) :
    isDots (encodeURIComponent id) = true <-> id = bytesOf "." ∨ id = bytesOf ".." := by
  constructor
  · intro h
    have hsingle : forall s, s ∈ [bytesOf ".", bytesOf "%2e", bytesOf "%2E"] ->
        decode s = some (bytesOf ".") := by decide +kernel
    have hdouble : forall s, s ∈ [bytesOf "..", bytesOf ".%2e", bytesOf ".%2E", bytesOf "%2e.",
        bytesOf "%2E.", bytesOf "%2e%2e", bytesOf "%2e%2E", bytesOf "%2E%2e", bytesOf "%2E%2E"] ->
        decode s = some (bytesOf "..") := by decide +kernel
    have hid : decode (encodeURIComponent id) = some id := decode_encode isUnescaped_percent id
    rcases (Bool.or_eq_true _ _).mp h with hs | hd
    · rw [hsingle _ (of_decide_eq_true hs)] at hid
      exact Or.inl (Option.some.inj hid).symm
    · rw [hdouble _ (of_decide_eq_true hd)] at hid
      exact Or.inr (Option.some.inj hid).symm
  · intro h
    rcases h with heq | heq
    · rw [heq]
      decide
    · rw [heq]
      decide

theorem slash_not_mem_encodeURIComponent (id : ByteString) : slash ∉ encodeURIComponent id :=
  not_mem_encode isUnescaped_slash (by decide) (by decide) id

/-- Both sides agree on which bytes of the id to escape. -/
def Agreed (id : ByteString) : Prop := forall b, b ∈ id -> isUnescaped b = keeps .path b

theorem agreed_of_all {id : ByteString}
    (h : id.all (fun b => isUnescaped b == keeps .path b) = true) : Agreed id := by
  intro b hb
  exact beq_iff_eq.mp (List.all_eq_true.mp h b hb)

/-- The bytes that only one of the sides escapes: the browser leaves the first five alone,
{lit}`net/url` the others. -/
theorem agreed_iff (id : ByteString) :
    Agreed id <-> forall b, b ∈ id -> b ∉ bytesOf "!'()*$&+,/:;=@" := by
  have hall : forall n : Fin 256,
      isUnescaped (UInt8.ofNat n.val) = keeps .path (UInt8.ofNat n.val) <->
        UInt8.ofNat n.val ∉ bytesOf "!'()*$&+,/:;=@" := by decide +kernel
  have hbyte : forall b : UInt8, isUnescaped b = keeps .path b <->
      b ∉ bytesOf "!'()*$&+,/:;=@" := by
    intro b
    have h := hall ⟨b.toNat, b.toNat_lt⟩
    rw [UInt8.ofNat_toNat] at h
    exact h
  exact forall_congr' (fun b => imp_congr_right (fun _ => hbyte b))

/-- The id needs no escape. -/
def Unescaped (id : ByteString) : Prop := forall b, b ∈ id -> isUnescaped b = true

theorem encodeURIComponent_eq_self_iff (id : ByteString) :
    encodeURIComponent id = id <-> Unescaped id := encode_eq_self_iff

section

variable {base ids : List ByteString}

/-- Segments of letters and digits. -/
def PlainBase (base : List ByteString) : Prop :=
  forall s, s ∈ base -> forall b, b ∈ s -> isAlphanumeric b = true

theorem plainBase_of_all (h : base.all (fun s => s.all isAlphanumeric) = true) :
    PlainBase base := by
  intro s hs b hb
  exact List.all_eq_true.mp (List.all_eq_true.mp h s hs) b hb

theorem PlainBase.agreed (hbase : PlainBase base) {s : ByteString} (hs : s ∈ base) : Agreed s := by
  intro b hb
  have hkept := isAlphanumeric_kept (hbase s hs b hb)
  exact hkept.left.trans hkept.right.symm

theorem PlainBase.map_encode (hbase : PlainBase base) : base.map encodeURIComponent = base := by
  have hself : forall s, s ∈ base -> encodeURIComponent s = id s := by
    intro s hs
    exact (encodeURIComponent_eq_self_iff s).mpr
      (fun b hb => (isAlphanumeric_kept (hbase s hs b hb)).left)
  rw [List.map_congr_left hself, List.map_id]

theorem PlainBase.not_dots (hbase : PlainBase base) {s : ByteString} (hs : s ∈ base) :
    s ≠ bytesOf "." ∧ s ≠ bytesOf ".." := by
  constructor
  · intro heq
    have hdot := hbase s hs 46 (by rw [heq]; decide)
    exact absurd hdot (by decide)
  · intro heq
    have hdot := hbase s hs 46 (by rw [heq]; decide)
    exact absurd hdot (by decide)

theorem pathState_ids (hbase : PlainBase base)
    (hdots : forall id, id ∈ ids -> id ≠ bytesOf "." ∧ id ≠ bytesOf "..") :
    pathState [] (base ++ ids.map encodeURIComponent) = (base ++ ids).map encodeURIComponent := by
  have hnone : forall s, s ∈ (base ++ ids).map encodeURIComponent -> isDots s = false := by
    intro s hs
    rcases List.mem_map.mp hs with ⟨id, hid, heq⟩
    have hne : id ≠ bytesOf "." ∧ id ≠ bytesOf ".." := by
      rcases List.mem_append.mp hid with hb | hi
      · exact hbase.not_dots hb
      · exact hdots id hi
    rw [← heq, ← Bool.not_eq_true, isDots_encodeURIComponent, not_or]
    exact hne
  have hmap : base ++ ids.map encodeURIComponent = (base ++ ids).map encodeURIComponent := by
    rw [List.map_append, hbase.map_encode]
  rw [hmap, pathState_of_no_dots hnone, List.nil_append]

theorem requestPath_eq (hbase : PlainBase base)
    (hdots : forall id, id ∈ ids -> id ≠ bytesOf "." ∧ id ≠ bytesOf "..") :
    requestPath base ids = pathOf ((base ++ ids).map encodeURIComponent) := by
  unfold requestPath
  rw [pathState_ids hbase hdots]

theorem agreed_append_iff (hbase : PlainBase base) :
    (forall s, s ∈ base ++ ids -> Agreed s) <-> forall id, id ∈ ids -> Agreed id := by
  constructor
  · intro h id hid
    exact h id (List.mem_append_right base hid)
  · intro h s hs
    rcases List.mem_append.mp hs with hb | hi
    · exact hbase.agreed hb
    · exact h s hi

theorem setPath_requestPath (hbase : PlainBase base)
    (hdots : forall id, id ∈ ids -> id ≠ bytesOf "." ∧ id ≠ bytesOf "..") :
    exists u, setPath (requestPath base ids) = some u ∧ u.path = pathOf (base ++ ids) ∧
      ((forall id, id ∈ ids -> Agreed id) -> u.rawPath = []) ∧
      ((¬ forall id, id ∈ ids -> Agreed id) -> u.rawPath = requestPath base ids) := by
  have hpath := requestPath_eq hbase hdots
  have hdecode : decode (requestPath base ids) = some (pathOf (base ++ ids)) := by
    rw [hpath]
    exact decode_pathOf_encode isUnescaped_percent (base ++ ids)
  have hdefault : escapePath (pathOf (base ++ ids)) = requestPath base ids <->
      forall id, id ∈ ids -> Agreed id := by
    rw [hpath, escapePath_pathOf, eq_comm]
    exact (pathOf_map_encode_eq_iff isUnescaped_percent (keeps_percent .path) (base ++ ids)).trans
      (agreed_append_iff hbase)
  unfold setPath
  rw [hdecode]
  refine ⟨_, rfl, rfl, ?_, ?_⟩
  · intro h
    exact if_pos (hdefault.mpr h)
  · intro h
    exact if_neg (fun heq => h (hdefault.mp heq))

theorem Agreed.slash_not_mem {id : ByteString} (h : Agreed id) : slash ∉ id := by
  intro hmem
  have hsame := h slash hmem
  rw [isUnescaped_slash, keeps_slash] at hsame
  cases hsame

theorem encodeURIComponent_ne_nil {id : ByteString} (h : id ≠ []) :
    encodeURIComponent id ≠ [] := by
  intro hnil
  have hle := length_le_encode isUnescaped id
  have hzero : (encode isUnescaped id).length = 0 := congrArg List.length hnil
  rw [hzero] at hle
  exact h (List.length_eq_zero_iff.mp (Nat.le_zero.mp hle))

theorem urlParams_requestPath (hbase : PlainBase base)
    (hdots : forall id, id ∈ ids -> id ≠ bytesOf "." ∧ id ≠ bytesOf "..")
    (hids : forall id, id ∈ ids -> id ≠ []) :
    ((forall id, id ∈ ids -> Agreed id) ->
      urlParams (pattern base ids.length) (requestPath base ids) = some ids) ∧
    ((¬ forall id, id ∈ ids -> Agreed id) ->
      urlParams (pattern base ids.length) (requestPath base ids) =
        some (ids.map encodeURIComponent)) := by
  rcases setPath_requestPath hbase hdots with ⟨u, hu, hpath, hagreed, hnot⟩
  constructor
  · intro h
    have hslash : forall s, s ∈ base ++ ids -> slash ∉ s :=
      fun s hs => ((agreed_append_iff hbase).mpr h s hs).slash_not_mem
    have hroute : routePath u = pathOf (base ++ ids) := by
      unfold routePath
      rw [hagreed h, if_neg (fun hne => hne rfl), hpath]
    unfold urlParams
    rw [hu]
    show matchSegments _ ((routePath u).splitOn slash) = _
    rw [hroute, splitOn_pathOf hslash]
    exact matchSegments_pattern base hids
  · intro h
    have hslash : forall s, s ∈ (base ++ ids).map encodeURIComponent -> slash ∉ s := by
      intro s hs
      rcases List.mem_map.mp hs with ⟨id, _, heq⟩
      rw [← heq]
      exact slash_not_mem_encodeURIComponent id
    have hne : requestPath base ids ≠ [] := by
      intro hnil
      rw [requestPath_eq hbase hdots] at hnil
      have hempty : base ++ ids = [] := by
        cases hsegs : base ++ ids with
        | nil => rfl
        | cons s rest =>
            rw [hsegs, List.map_cons, pathOf_cons] at hnil
            cases hnil
      have hids : ids = [] := (List.append_eq_nil_iff.mp hempty).right
      apply h
      intro id hid
      rw [hids] at hid
      cases hid
    have hroute : routePath u = pathOf ((base ++ ids).map encodeURIComponent) := by
      unfold routePath
      rw [hnot h, if_pos hne, requestPath_eq hbase hdots]
    have hencoded : forall id, id ∈ ids.map encodeURIComponent -> id ≠ [] := by
      intro s hs
      rcases List.mem_map.mp hs with ⟨id, hid, heq⟩
      rw [← heq]
      exact encodeURIComponent_ne_nil (hids id hid)
    have hmatch := matchSegments_pattern base hencoded
    rw [List.length_map] at hmatch
    unfold urlParams
    rw [hu]
    show matchSegments _ ((routePath u).splitOn slash) = _
    rw [hroute, splitOn_pathOf hslash, List.map_append, hbase.map_encode]
    exact hmatch

theorem slash_not_mem_pathState (hbase : PlainBase base) {s : ByteString}
    (hs : s ∈ pathState [] (base ++ ids.map encodeURIComponent)) : slash ∉ s := by
  rcases mem_pathState hs with hout | hseg | hnil
  · cases hout
  · rcases List.mem_append.mp hseg with hb | hi
    · exact (hbase.agreed hb).slash_not_mem
    · rcases List.mem_map.mp hi with ⟨id, _, heq⟩
      rw [← heq]
      exact slash_not_mem_encodeURIComponent id
  · rw [hnil]
    exact List.not_mem_nil

theorem pattern_length (base : List ByteString) (n : Nat) :
    (pattern base n).length = base.length + n + 1 := by
  unfold pattern
  rw [List.length_append, List.length_cons, List.length_map, List.length_replicate]
  omega

theorem pattern_getLast? (base : List ByteString) {n : Nat} (h : n ≠ 0) :
    (pattern base n).getLast? = some .param := by
  cases n with
  | zero => exact absurd rfl h
  | succ n =>
      unfold pattern
      rw [List.replicate_succ', ← List.append_assoc, List.getLast?_concat]

theorem segments_alike {segs parts : List ByteString}
    (h : parts = segs ∨ parts.map escapePath = segs) :
    parts.length = segs.length ∧ (segs.getLast? = some [] -> parts.getLast? = some []) := by
  rcases h with heq | heq
  · rw [heq]
    exact ⟨rfl, id⟩
  · rw [← heq]
    refine ⟨(List.length_map _).symm, ?_⟩
    intro hempty
    rw [List.getLast?_map] at hempty
    rcases Option.map_eq_some_iff.mp hempty with ⟨x, hx, hnil⟩
    rw [hx, escapePath_eq_nil hnil]

theorem urlParams_none (hbase : PlainBase base) (hne : ids ≠ [])
    (h : (pathState [] (base ++ ids.map encodeURIComponent)).length < base.length + ids.length ∨
      (pathState [] (base ++ ids.map encodeURIComponent)).getLast? = some []) :
    urlParams (pattern base ids.length) (requestPath base ids) = none := by
  have hlast : (pattern base ids.length).getLast? = some .param :=
    pattern_getLast? base (fun hzero => hne (List.length_eq_zero_iff.mp hzero))
  cases hparams : urlParams (pattern base ids.length) (requestPath base ids) with
  | none => rfl
  | some ps =>
      unfold urlParams at hparams
      cases hu : setPath (requestPath base ids) with
      | none =>
          rw [hu] at hparams
          cases hparams
      | some u =>
          rw [hu] at hparams
          rcases routePath_segments (fun s hs => slash_not_mem_pathState hbase hs) hu with
            ⟨parts, hparts, hsame⟩
          rcases segments_alike hsame with ⟨hcount, hempties⟩
          have hmatch : matchSegments (pattern base ids.length) ([] :: parts) = some ps := by
            rw [← hparts]
            exact hparams
          rcases matchSegments_some hmatch with ⟨hlength, hend⟩
          rw [pattern_length, List.length_cons] at hlength
          rcases h with hless | hempty
          · omega
          · have hpartsEnd := hempties hempty
            apply absurd _ (hend hlast)
            cases parts with
            | nil => cases hpartsEnd
            | cons x rest =>
                rw [List.getLast?_cons_cons]
                exact hpartsEnd

end

end Web
end LodelineManager
