import LodelineManager.Go.URL

/-!
# Paths of requests

{lit}`net/url` reads the path of a request line and keeps the text as it came when its own
escaping of the path would differ.  The router takes the parameters of a route out of
that text, as it stands, and out of the decoded path when no text is kept.
-/

namespace LodelineManager
namespace Go

open Foundation PercentCoding

/-- {lit}`url.URL`; an empty {lit}`rawPath` means the default escaping of {lit}`path`. -/
structure URL where
  path : ByteString
  rawPath : ByteString
  deriving DecidableEq

def escapePath (s : ByteString) : ByteString := encode (keeps .path) s

def setPath (p : ByteString) : Option URL :=
  match decode p with
  | none => none
  | some path => some { path := path, rawPath := if escapePath path = p then [] else p }

def slash : UInt8 := 47

inductive Segment where
  | fixed (text : ByteString)
  | param

def routePath (u : URL) : ByteString := if u.rawPath ≠ [] then u.rawPath else u.path

/-- The parameters of the segments of a path.  A parameter matches any text, but there is
no match when nothing at all is left of the path. -/
def matchSegments : List Segment -> List ByteString -> Option (List ByteString)
  | [], [] => some []
  | .fixed text :: pattern, s :: rest =>
      if s = text then matchSegments pattern rest else none
  | .param :: pattern, s :: rest =>
      if s = [] ∧ rest = [] then none else (matchSegments pattern rest).map (fun ps => s :: ps)
  | _, _ => none

/-- The URL parameters of a request for {lit}`path`, when the pattern matches. -/
def urlParams (pattern : List Segment) (path : ByteString) : Option (List ByteString) :=
  match setPath path with
  | none => none
  | some u => matchSegments pattern ((routePath u).splitOn slash)

def pattern (base : List ByteString) (params : Nat) : List Segment :=
  .fixed [] :: base.map Segment.fixed ++ List.replicate params .param

def pathOf (segments : List ByteString) : ByteString := segments.flatMap (fun s => slash :: s)

/-!
## Segments
-/

theorem pathOf_cons (s : ByteString) (rest : List ByteString) :
    pathOf (s :: rest) = slash :: (s ++ pathOf rest) := List.flatMap_cons

theorem append_pathOf (s : ByteString) (rest : List ByteString) :
    s ++ pathOf rest = List.intercalate [slash] (s :: rest) := by
  induction rest generalizing s with
  | nil =>
      rw [List.intercalate_singleton]
      exact List.append_nil s
  | cons t rest ih =>
      rw [List.intercalate_cons_cons, pathOf_cons, ← ih t, List.append_assoc]
      rfl

theorem splitOn_pathOf {segments : List ByteString}
    (h : forall s, s ∈ segments -> slash ∉ s) : (pathOf segments).splitOn slash =
      [] :: segments := by
  rw [← List.nil_append (pathOf segments), append_pathOf]
  apply List.splitOn_intercalate
  · intro s hs
    rcases List.mem_cons.mp hs with heq | hmem
    · rw [heq]
      exact List.not_mem_nil
    · exact h s hmem
  · exact List.cons_ne_nil _ _

theorem escapePath_eq_nil {s : ByteString} (h : escapePath s = []) : s = [] := by
  have hle := length_le_encode (keeps .path) s
  have hzero : (encode (keeps .path) s).length = 0 := congrArg List.length h
  rw [hzero] at hle
  exact List.length_eq_zero_iff.mp (Nat.le_zero.mp hle)

theorem keeps_slash : keeps .path slash = true := by decide

theorem escapePath_pathOf (segments : List ByteString) :
    escapePath (pathOf segments) = pathOf (segments.map escapePath) := by
  induction segments with
  | nil => rfl
  | cons s rest ih =>
      have hslash : encodeByte (keeps .path) slash = [slash] := if_pos keeps_slash
      unfold escapePath at ih
      unfold escapePath
      rw [pathOf_cons, encode_cons, encode_append, hslash, ih, List.map_cons, pathOf_cons]
      rfl

theorem splitOn_append_of_not_mem {front : ByteString} (h : slash ∉ front) (s : ByteString) :
    (front ++ s).splitOn slash = (s.splitOn slash).modifyHead (fun part => front ++ part) := by
  induction front with
  | nil =>
      show s.splitOn slash = (s.splitOn slash).modifyHead id
      rw [List.modifyHead_id]
      rfl
  | cons c front ih =>
      rw [List.mem_cons, not_or] at h
      have hc : (c == slash) = false := beq_eq_false_iff_ne.mpr (fun heq => h.left heq.symm)
      rw [List.cons_append, List.splitOn_cons_eq_if_modifyHead, hc, ih h.right]
      show ((s.splitOn slash).modifyHead _).modifyHead _ = _
      rw [List.modifyHead_modifyHead]
      rfl

theorem splitOn_escapePath (s : ByteString) :
    (escapePath s).splitOn slash = (s.splitOn slash).map escapePath := by
  induction s with
  | nil => rfl
  | cons c s ih =>
      have hcons : escapePath (c :: s) = encodeByte (keeps .path) c ++ escapePath s :=
        encode_cons _ c s
      rw [hcons, List.splitOn_cons_eq_if_modifyHead]
      by_cases hc : c = slash
      · have hslash : encodeByte (keeps .path) slash = [slash] := if_pos keeps_slash
        rw [hc, hslash, List.singleton_append, List.splitOn_cons_eq_if_modifyHead, ih]
        simp only [beq_self_eq_true, if_true]
        rfl
      · have hnot : slash ∉ encodeByte (keeps .path) c :=
          not_mem_encodeByte (fun heq => hc heq.symm) (by decide) (by decide)
        rw [splitOn_append_of_not_mem hnot, ih, if_neg (fun h => hc (beq_iff_eq.mp h))]
        cases s.splitOn slash with
        | nil => rfl
        | cons part rest =>
            exact congrArg (· :: rest.map escapePath) (encode_cons _ c part).symm

theorem decode_pathOf_encode {keep : UInt8 -> Bool} (hkeep : keep percent = false)
    (segments : List ByteString) :
    decode (pathOf (segments.map (encode keep))) = some (pathOf segments) := by
  induction segments with
  | nil => rfl
  | cons s rest ih =>
      rw [List.map_cons, pathOf_cons, decode_cons_of_ne (by decide), decode_encode_append hkeep,
        ih, pathOf_cons]
      rfl

theorem pathOf_map_encode_eq_iff {keep keep' : UInt8 -> Bool} (hkeep : keep percent = false)
    (hkeep' : keep' percent = false) (segments : List ByteString) :
    pathOf (segments.map (encode keep)) = pathOf (segments.map (encode keep')) <->
      forall s, s ∈ segments -> forall b, b ∈ s -> keep b = keep' b := by
  induction segments with
  | nil =>
      constructor
      · intro _ s hs
        cases hs
      · intro _
        rfl
  | cons s rest ih =>
      rw [List.map_cons, List.map_cons, pathOf_cons, pathOf_cons, List.cons_inj_right,
        encode_append_eq_iff hkeep hkeep', ih, List.forall_mem_cons]

theorem routePath_segments {segments : List ByteString} {u : URL}
    (hslash : forall s, s ∈ segments -> slash ∉ s) (h : setPath (pathOf segments) = some u) :
    exists parts, (routePath u).splitOn slash = [] :: parts ∧
      (parts = segments ∨ parts.map escapePath = segments) := by
  unfold setPath at h
  cases hdecode : decode (pathOf segments) with
  | none =>
      rw [hdecode] at h
      cases h
  | some path =>
      rw [hdecode] at h
      cases h
      by_cases hdefault : escapePath path = pathOf segments
      · rw [if_pos hdefault]
        have hsplit := splitOn_escapePath path
        rw [hdefault, splitOn_pathOf hslash] at hsplit
        cases hparts : path.splitOn slash with
        | nil =>
            rw [hparts] at hsplit
            cases hsplit
        | cons x parts =>
            rw [hparts, List.map_cons] at hsplit
            rcases List.cons.inj hsplit with ⟨hx, hrest⟩
            have hnil : x = [] := escapePath_eq_nil hx.symm
            refine ⟨parts, ?_, Or.inr hrest.symm⟩
            show path.splitOn slash = _
            rw [hparts, hnil]
      · have hne : pathOf segments ≠ [] := by
          intro hnil
          rw [hnil] at hdecode hdefault
          cases hdecode
          exact hdefault rfl
        refine ⟨segments, ?_, Or.inl rfl⟩
        rw [if_neg hdefault]
        unfold routePath
        rw [if_pos hne, splitOn_pathOf hslash]

theorem matchSegments_params {ids : List ByteString} (h : forall id, id ∈ ids -> id ≠ []) :
    matchSegments (List.replicate ids.length .param) ids = some ids := by
  induction ids with
  | nil => rfl
  | cons id rest ih =>
      have hid : ¬ (id = [] ∧ rest = []) := fun hboth => h id List.mem_cons_self hboth.left
      show (if id = [] ∧ rest = [] then none else
        (matchSegments (List.replicate rest.length .param) rest).map (fun ps => id :: ps)) = _
      rw [if_neg hid, ih (fun x hx => h x (List.mem_cons_of_mem _ hx))]
      rfl

theorem matchSegments_fixed (base ids : List ByteString) (params : List Segment) :
    matchSegments (base.map Segment.fixed ++ params) (base ++ ids) =
      matchSegments params ids := by
  induction base with
  | nil => rfl
  | cons s rest ih =>
      show (if s = s then matchSegments (rest.map Segment.fixed ++ params) (rest ++ ids)
        else none) = _
      rw [if_pos rfl]
      exact ih

theorem matchSegments_pattern (base : List ByteString) {ids : List ByteString}
    (h : forall id, id ∈ ids -> id ≠ []) :
    matchSegments (pattern base ids.length) ([] :: (base ++ ids)) = some ids :=
  (matchSegments_fixed ([] :: base) ids _).trans (matchSegments_params h)

theorem matchSegments_some {pattern : List Segment} {segments ps : List ByteString}
    (h : matchSegments pattern segments = some ps) :
    segments.length = pattern.length ∧
      (pattern.getLast? = some .param -> segments.getLast? ≠ some []) := by
  induction pattern generalizing segments ps with
  | nil =>
      cases segments with
      | nil =>
          constructor
          · rfl
          · intro hlast
            cases hlast
      | cons s rest => cases h
  | cons x pattern ih =>
      cases segments with
      | nil => cases x <;> cases h
      | cons s rest =>
          have hrest : (exists qs, matchSegments pattern rest = some qs) ∧
              (x = .param -> rest = [] -> s ≠ []) := by
            cases x with
            | fixed text =>
                by_cases hs : s = text
                · rw [matchSegments, if_pos hs] at h
                  exact ⟨⟨ps, h⟩, fun hx => by cases hx⟩
                · rw [matchSegments, if_neg hs] at h
                  cases h
            | param =>
                by_cases hs : s = [] ∧ rest = []
                · rw [matchSegments, if_pos hs] at h
                  cases h
                · rw [matchSegments, if_neg hs] at h
                  rcases Option.map_eq_some_iff.mp h with ⟨qs, hqs, _⟩
                  exact ⟨⟨qs, hqs⟩, fun _ hend heq => hs ⟨heq, hend⟩⟩
          rcases hrest.left with ⟨qs, hqs⟩
          rcases ih hqs with ⟨hlength, hlast⟩
          constructor
          · exact congrArg Nat.succ hlength
          · intro hend
            cases pattern with
            | nil =>
                have hnil : rest = [] := List.length_eq_zero_iff.mp hlength
                have hx : x = .param := Option.some.inj hend
                rw [hnil]
                intro heq
                exact hrest.right hx hnil (Option.some.inj heq)
            | cons y pattern =>
                cases rest with
                | nil => cases hlength
                | cons t rest =>
                    rw [List.getLast?_cons_cons]
                    rw [List.getLast?_cons_cons] at hend
                    exact hlast hend

end Go
end LodelineManager
