import LodelineManager.Api.TriageGet
import LodelineManager.Fleet.Requests
import LodelineManager.Web.RequestPath

/-!
# Ids in paths

An id that was written in a JSON body is read again out of a path.  The handlers take the
parameter of the router for the id, so they see the id that the browser meant or the
escapes that it wrote.
-/

namespace LodelineManager
namespace Api

open Foundation SingleConnection Go Triage Fleet

def triageBase : List ByteString := [bytesOf "api", bytesOf "v1", bytesOf "triage"]

def eventsBase : List ByteString :=
  [bytesOf "api", bytesOf "v1", bytesOf "fleet", bytesOf "events"]

/-- The handler call that {lit}`getTriage(hostID, eventID)` of the browser leads to. -/
def getTriage (hostID eventID : String) : Option GetCall :=
  match urlParams (pattern triageBase 2)
      (Web.requestPath triageBase [utf8 hostID, utf8 eventID]) with
  | some [host, event] =>
      match textOf host, textOf event with
      | some hostID, some eventID => some (handleTriageGet hostID eventID)
      | _, _ => none
  | _ => none

/-- The id that {lit}`fleetEventByID(eventID)` of the browser makes {lit}`EventByID` ask the
server for, decoded. -/
def upstreamEventID (eventID : String) : Option ByteString :=
  match urlParams (pattern eventsBase 1) (Web.requestPath eventsBase [utf8 eventID]) with
  | some [id] =>
      pathUnescape ((bytesOf (CachedCall.eventByID id).request.2.1).drop
        (bytesOf "/v1/events/").length)
  | _ => none

/-- None of the ids is a dot segment, and either the escapings of the browser and of
{lit}`net/url` agree on all of them or none needs any. -/
def Readable (ids : List String) : Prop :=
  (forall id, id ∈ ids -> id ≠ "." ∧ id ≠ "..") ∧
    ((forall id, id ∈ ids -> Web.Agreed (utf8 id)) ∨
      forall id, id ∈ ids -> Web.Unescaped (utf8 id))

/-!
## Parameters
-/

theorem utf8_eq_nil_iff (s : String) : utf8 s = [] <-> s = "" := by
  constructor
  · intro h
    exact utf8_injective h
  · intro h
    rw [h]
    rfl

theorem utf8_dots (s : String) :
    (utf8 s ≠ bytesOf "." ∧ utf8 s ≠ bytesOf "..") <-> s ≠ "." ∧ s ≠ ".." := by
  have hone : bytesOf "." = utf8 "." := by decide
  have htwo : bytesOf ".." = utf8 ".." := by decide
  rw [hone, htwo]
  constructor
  · intro h
    exact ⟨fun heq => h.left (congrArg utf8 heq), fun heq => h.right (congrArg utf8 heq)⟩
  · intro h
    exact ⟨fun heq => h.left (utf8_injective heq), fun heq => h.right (utf8_injective heq)⟩

section

variable {base : List ByteString} {ids : List String}

theorem map_encode_eq_iff :
    (ids.map utf8).map Web.encodeURIComponent = ids.map utf8 <->
      forall id, id ∈ ids -> Web.Unescaped (utf8 id) := by
  rw [List.map_map]
  constructor
  · intro h id hid
    exact (Web.encodeURIComponent_eq_self_iff (utf8 id)).mp (List.map_inj_left.mp h id hid)
  · intro h
    apply List.map_inj_left.mpr
    intro id hid
    exact (Web.encodeURIComponent_eq_self_iff (utf8 id)).mpr (h id hid)

theorem urlParams_ids (hbase : Web.PlainBase base)
    (hdots : forall id, id ∈ ids -> id ≠ "." ∧ id ≠ "..") (hids : forall id, id ∈ ids -> id ≠ "") :
    (Readable ids -> urlParams (pattern base ids.length) (Web.requestPath base (ids.map utf8)) =
        some (ids.map utf8)) ∧
    (¬ Readable ids ->
      (ids.map utf8).map Web.encodeURIComponent ≠ ids.map utf8 ∧
      urlParams (pattern base ids.length) (Web.requestPath base (ids.map utf8)) =
        some ((ids.map utf8).map Web.encodeURIComponent)) := by
  have hdots' : forall id, id ∈ ids.map utf8 -> id ≠ bytesOf "." ∧ id ≠ bytesOf ".." := by
    intro s hs
    rcases List.mem_map.mp hs with ⟨id, hid, heq⟩
    rw [← heq]
    exact (utf8_dots id).mpr (hdots id hid)
  have hids' : forall id, id ∈ ids.map utf8 -> id ≠ [] := by
    intro s hs
    rcases List.mem_map.mp hs with ⟨id, hid, heq⟩
    rw [← heq]
    exact fun hnil => hids id hid ((utf8_eq_nil_iff id).mp hnil)
  have hparams := Web.urlParams_requestPath hbase hdots' hids'
  rw [List.length_map, List.forall_mem_map] at hparams
  constructor
  · intro hread
    by_cases hagreed : forall id, id ∈ ids -> Web.Agreed (utf8 id)
    · exact hparams.left hagreed
    · rw [hparams.right hagreed, map_encode_eq_iff.mpr (hread.right.resolve_left hagreed)]
  · intro hnot
    constructor
    · intro hsame
      exact hnot ⟨hdots, Or.inr (map_encode_eq_iff.mp hsame)⟩
    · exact hparams.right (fun hagreed => hnot ⟨hdots, Or.inl hagreed⟩)

theorem urlParams_missing (hbase : Web.PlainBase base) (hne : ids ≠ [])
    (h : (exists id, id ∈ ids ∧ (id = "." ∨ id = "..")) ∨ ids.getLast? = some "") :
    urlParams (pattern base ids.length) (Web.requestPath base (ids.map utf8)) = none := by
  have hne' : ids.map utf8 ≠ [] := fun hnil => hne (List.map_eq_nil_iff.mp hnil)
  have hnone := Web.urlParams_none hbase hne'
  rw [List.length_map] at hnone
  apply hnone
  by_cases hdots : exists id, id ∈ ids ∧ (id = "." ∨ id = "..")
  · rcases hdots with ⟨id, hid, hdot⟩
    have hmem : Web.encodeURIComponent (utf8 id) ∈
        base ++ (ids.map utf8).map Web.encodeURIComponent :=
      List.mem_append_right base (List.mem_map_of_mem (List.mem_map_of_mem hid))
    have hisDots : Web.isDots (Web.encodeURIComponent (utf8 id)) = true := by
      rcases hdot with heq | heq
      · rw [heq]
        exact (Web.isDots_encodeURIComponent _).mpr (Or.inl (by decide))
      · rw [heq]
        exact (Web.isDots_encodeURIComponent _).mpr (Or.inr (by decide))
    rcases Web.pathState_of_dots [] hmem hisDots with hless | hlast
    · apply Or.inl
      rw [List.length_append, List.length_map, List.length_map, List.length_nil,
        Nat.zero_add] at hless
      exact hless
    · exact Or.inr hlast
  · apply Or.inr
    have hlast := h.resolve_left hdots
    have hdots' : forall id, id ∈ ids.map utf8 -> id ≠ bytesOf "." ∧ id ≠ bytesOf ".." := by
      intro s hs
      rcases List.mem_map.mp hs with ⟨id, hid, heq⟩
      rw [← heq]
      exact (utf8_dots id).mpr (not_or.mp (fun hdot => hdots ⟨id, hid, hdot⟩))
    rw [Web.pathState_ids hbase hdots', List.getLast?_map, List.getLast?_append,
      List.getLast?_map, hlast]
    rfl

end

/-!
## The triage detail
-/

theorem triageBase_plain : Web.PlainBase triageBase := Web.plainBase_of_all (by decide)

theorem eventsBase_plain : Web.PlainBase eventsBase := Web.plainBase_of_all (by decide)

theorem getTriage_some {hostID eventID : String} {call : GetCall}
    (h : getTriage hostID eventID = some call) :
    exists host event, call = handleTriageGet host event ∧
      urlParams (pattern triageBase 2)
        (Web.requestPath triageBase [utf8 hostID, utf8 eventID]) =
          some [utf8 host, utf8 event] := by
  unfold getTriage at h
  split at h
  · rename_i host event hparams
    split at h
    · rename_i hostText eventText hhost hevent
      cases h
      refine ⟨hostText, eventText, rfl, ?_⟩
      rw [hparams, textOf_eq_some_iff.mp hhost, textOf_eq_some_iff.mp hevent]
    · cases h
  · cases h

theorem getTriage_of_params {hostID eventID host event : String}
    (h : urlParams (pattern triageBase 2)
      (Web.requestPath triageBase [utf8 hostID, utf8 eventID]) =
        some [utf8 host, utf8 event]) :
    getTriage hostID eventID = some (handleTriageGet host event) := by
  unfold getTriage
  rw [h]
  simp only [textOf_eq_some_iff.mpr rfl]

/-- A row of the store is what {lit}`getTriage` returns for its ids exactly when they are
readable. -/
theorem getTriage_row_iff {fk : Bool} {d : Db} {r : SqlRow} {hostID eventID : String}
    (hhost : hostID ≠ "") (hevent : eventID ≠ "")
    (hr : d.triage.find? (hostID, eventID) = some r) :
    (exists call body, getTriage hostID eventID = some call ∧
      call.run (engine fk) Prog.noFaults ⟨d, none⟩ = (.ok body, ⟨d, none⟩) ∧
      body.row = rowToResponse (scanRow r)) <-> Readable [hostID, eventID] := by
  have hkey : (r.hostID, r.eventID) = (hostID, eventID) :=
    (KeyedTable.find?_eq_some_iff.mp hr).right
  have hids : forall id, id ∈ [hostID, eventID] -> id ≠ "" := by
    intro id hid
    rcases List.mem_cons.mp hid with heq | hid
    · rw [heq]
      exact hhost
    · rw [List.mem_singleton.mp hid]
      exact hevent
  constructor
  · intro h
    rcases h with ⟨call, body, hcall, hrun, hbody⟩
    rcases getTriage_some hcall with ⟨host, event, hget, hparams⟩
    rw [hget] at hrun
    rcases ShowsAlone.cases hrun with ⟨r', hr', hbody'⟩
    have hkey' : (r'.hostID, r'.eventID) = (host, event) :=
      (KeyedTable.find?_eq_some_iff.mp hr').right
    rw [hbody'] at hbody
    have hhosts : r'.hostID = r.hostID := congrArg RowResponse.hostID hbody
    have hevents : r'.eventID = r.eventID := congrArg RowResponse.eventID hbody
    rw [hhosts, hevents, hkey] at hkey'
    cases hkey'
    by_contra hnot
    by_cases hdots : forall id, id ∈ [hostID, eventID] -> id ≠ "." ∧ id ≠ ".."
    · rcases (urlParams_ids triageBase_plain hdots hids).right hnot with ⟨hne, hescapes⟩
      apply hne
      exact Option.some.inj (hescapes.symm.trans hparams)
    · have hmissing : exists id, id ∈ [hostID, eventID] ∧ (id = "." ∨ id = "..") := by
        by_contra hnone
        apply hdots
        intro id hid
        exact not_or.mp (fun hdot => hnone ⟨id, hid, hdot⟩)
      have hnone := urlParams_missing triageBase_plain (List.cons_ne_nil _ _) (Or.inl hmissing)
      cases hnone.symm.trans hparams
  · intro hread
    have hparams := (urlParams_ids triageBase_plain hread.left hids).left hread
    have hnotEmpty : ¬ (hostID = "" || eventID = "") = true := by
      simp only [decide_eq_false hhost, decide_eq_false hevent, Bool.or_self,
        Bool.false_eq_true, not_false_eq_true]
    exact ⟨_, _, getTriage_of_params hparams, showsAlone_of_row fk hnotEmpty hr, rfl⟩

/-!
## The event behind an id
-/

theorem upstream_decodes (id : ByteString) :
    pathUnescape ((bytesOf (CachedCall.eventByID id).request.2.1).drop
      (bytesOf "/v1/events/").length) = some id := by
  have hpath : (CachedCall.eventByID id).request.2.1 =
      "/v1/events/" ++ (pathEscape id).text := CachedCall.path_eq (.eventByID id)
  rw [hpath, bytesOf_append, bytesOf_text, List.drop_left]
  exact pathUnescape_pathEscape id

theorem upstreamEventID_of_params {eventID : String} {id : ByteString}
    (h : urlParams (pattern eventsBase 1) (Web.requestPath eventsBase [utf8 eventID]) =
      some [id]) : upstreamEventID eventID = some id := by
  unfold upstreamEventID
  rw [h]
  exact upstream_decodes id

theorem upstreamEventID_missing {eventID : String}
    (h : eventID = "" ∨ eventID = "." ∨ eventID = "..") : upstreamEventID eventID = none := by
  have hnone : urlParams (pattern eventsBase [eventID].length)
      (Web.requestPath eventsBase ([eventID].map utf8)) = none := by
    apply urlParams_missing eventsBase_plain (List.cons_ne_nil _ _)
    rcases h with heq | hdots
    · rw [heq]
      exact Or.inr rfl
    · exact Or.inl ⟨eventID, List.mem_cons_self, hdots⟩
  have hnone' : urlParams (pattern eventsBase 1)
      (Web.requestPath eventsBase [utf8 eventID]) = none := hnone
  unfold upstreamEventID
  rw [hnone']

theorem upstreamEventID_cases {eventID : String}
    (h : ¬ (eventID = "" ∨ eventID = "." ∨ eventID = "..")) :
    (Readable [eventID] ∧ upstreamEventID eventID = some (utf8 eventID)) ∨
      ¬ Readable [eventID] ∧
        upstreamEventID eventID = some (Web.encodeURIComponent (utf8 eventID)) ∧
        Web.encodeURIComponent (utf8 eventID) ≠ utf8 eventID := by
  rw [not_or] at h
  have hdots : forall id, id ∈ [eventID] -> id ≠ "." ∧ id ≠ ".." := by
    intro id hid
    rw [List.mem_singleton.mp hid]
    exact not_or.mp h.right
  have hids : forall id, id ∈ [eventID] -> id ≠ "" := by
    intro id hid
    rw [List.mem_singleton.mp hid]
    exact h.left
  have hparams := urlParams_ids eventsBase_plain hdots hids
  by_cases hread : Readable [eventID]
  · exact Or.inl ⟨hread, upstreamEventID_of_params (hparams.left hread)⟩
  · rcases hparams.right hread with ⟨hne, hescapes⟩
    exact Or.inr ⟨hread, upstreamEventID_of_params hescapes,
      fun heq => hne (congrArg (fun s => [s]) heq)⟩

theorem upstreamEventID_iff (eventID : String) :
    (upstreamEventID eventID = some (utf8 eventID) <-> eventID ≠ "" ∧ Readable [eventID]) ∧
      (upstreamEventID eventID = none <-> eventID = "" ∨ eventID = "." ∨ eventID = "..") := by
  by_cases hmissing : eventID = "" ∨ eventID = "." ∨ eventID = ".."
  · have hnone := upstreamEventID_missing hmissing
    constructor
    · rw [hnone]
      constructor
      · intro h
        cases h
      · intro h
        rcases hmissing with heq | hdots
        · exact absurd heq h.left
        · exact absurd hdots (not_or.mpr (h.right.left eventID List.mem_cons_self))
    · exact ⟨fun _ => hmissing, fun _ => hnone⟩
  · have hne : eventID ≠ "" := fun heq => hmissing (Or.inl heq)
    have hnever : forall id, (some id : Option ByteString) = none <->
        eventID = "" ∨ eventID = "." ∨ eventID = ".." := by
      intro id
      constructor
      · intro h
        cases h
      · intro h
        exact absurd h hmissing
    rcases upstreamEventID_cases hmissing with ⟨hread, hsome⟩ | ⟨hnot, hsome, hother⟩
    · rw [hsome]
      refine ⟨?_, hnever _⟩
      constructor
      · exact fun _ => ⟨hne, hread⟩
      · exact fun _ => rfl
    · rw [hsome]
      refine ⟨?_, hnever _⟩
      constructor
      · exact fun h => absurd (Option.some.inj h) hother
      · exact fun h => absurd h.right hnot

/-- After every accepted upsert, the row that it wrote is the one that {lit}`getTriage`
returns exactly when its ids are readable; and an event is asked for upstream under the
id that the browser passed exactly when that is a readable id, under another one for
other ids, and not at all for the empty id and dot segments. -/
theorem ids_read_back {fk : Bool} {now : Int} {subject : String} {req : UpsertRequest}
    {inp : UpsertInput} {d : Db} {row : Row} {c : Conn Db}
    (hcall : handleTriageUpsert now subject (some req) = .ok (.upsert now inp))
    (hrun : (upsert now inp).run (engine fk) Prog.noFaults ⟨d, none⟩ = (.ok row, c))
    (eventID : String) :
    (exists r, c.committed.triage.find? (req.hostID, req.eventID) = some r ∧ r.Holds row ∧
      ((exists call body, getTriage req.hostID req.eventID = some call ∧
        call.run (engine fk) Prog.noFaults ⟨c.committed, none⟩ =
          (.ok body, ⟨c.committed, none⟩) ∧
        body.row = rowToResponse (scanRow r)) <-> Readable [req.hostID, req.eventID])) ∧
    (upstreamEventID eventID = some (utf8 eventID) <-> eventID ≠ "" ∧ Readable [eventID]) ∧
    (upstreamEventID eventID = none <-> eventID = "" ∨ eventID = "." ∨ eventID = "..") := by
  refine ⟨?_, upstreamEventID_iff eventID⟩
  have hids := handleTriageUpsert_ids hcall
  rcases handleTriageUpsert_ok hcall with ⟨inp', hinp, hkey, _, _⟩
  cases hinp
  rcases (upsert_ok hrun).left.stored with ⟨r, hr, hholds⟩
  rw [hkey] at hr
  exact ⟨r, hr, hholds, getTriage_row_iff hids.left hids.right hr⟩

/-!
## A colon in an id
-/

def openRequest (hostID eventID : String) : UpsertRequest :=
  { hostID := hostID, eventID := eventID, status := statusOpen, assignee := none,
    clearAssignee := false, evidenceSnapshot := [123, 125] }

/-- Both sides escape a space. -/
theorem ids_read_back_space :
    exists inp row c call body,
      handleTriageUpsert 0 "admin" (some (openRequest "h 1" "e1")) = .ok (.upsert 0 inp) ∧
      (upsert 0 inp).run (engine true) Prog.noFaults ⟨Db.empty, none⟩ = (.ok row, c) ∧
      getTriage "h 1" "e1" = some call ∧
      call.run (engine true) Prog.noFaults ⟨c.committed, none⟩ =
        (.ok body, ⟨c.committed, none⟩) ∧
      body.row.hostID = "h 1" ∧ body.row.eventID = "e1" ∧
      upstreamEventID "e 1" = some (utf8 "e 1") := by
  have hhost : Web.Agreed (utf8 "h 1") := Web.agreed_of_all (by decide)
  have hevent : Web.Agreed (utf8 "e1") := Web.agreed_of_all (by decide)
  have hother : Web.Agreed (utf8 "e 1") := Web.agreed_of_all (by decide)
  have hread : Readable ["h 1", "e1"] :=
    ⟨by decide, Or.inl (List.forall_mem_cons.mpr ⟨hhost, List.forall_mem_singleton.mpr hevent⟩)⟩
  have hreadEvent : Readable ["e 1"] :=
    ⟨by decide, Or.inl (List.forall_mem_singleton.mpr hother)⟩
  have hrun : exists inp row c,
      handleTriageUpsert 0 "admin" (some (openRequest "h 1" "e1")) = .ok (.upsert 0 inp) ∧
      (upsert 0 inp).run (engine true) Prog.noFaults ⟨Db.empty, none⟩ = (.ok row, c) ∧
      row.hostID = "h 1" ∧ row.eventID = "e1" := ⟨_, _, _, rfl, rfl, rfl, rfl⟩
  rcases hrun with ⟨inp, row, c, hcall, hupsert, hrowHost, hrowEvent⟩
  rcases ids_read_back hcall hupsert "e 1" with ⟨⟨r, _, hholds, hiff⟩, hupstream, _⟩
  rcases hiff.mpr hread with ⟨call, body, hget, hbody, hrow⟩
  refine ⟨inp, row, c, call, body, hcall, hupsert, hget, hbody, ?_, ?_, ?_⟩
  · rw [hrow, ← hrowHost]
    exact hholds.left
  · rw [hrow, ← hrowEvent]
    exact hholds.right.left
  · exact hupstream.mpr ⟨by decide, hreadEvent⟩

/-- The browser escapes a colon and {lit}`net/url` does not, so the escape is taken for the
id, and no row has that id. -/
theorem not_ids_read_back_colon :
    exists inp row c,
      handleTriageUpsert 0 "admin" (some (openRequest "h1" "a:b")) = .ok (.upsert 0 inp) ∧
      (upsert 0 inp).run (engine true) Prog.noFaults ⟨Db.empty, none⟩ = (.ok row, c) ∧
      getTriage "h1" "a:b" = some (handleTriageGet "h1" "a%3Ab") ∧
      (handleTriageGet "h1" "a%3Ab").run (engine true) Prog.noFaults ⟨c.committed, none⟩ =
        (.error { status := 404, code := "not_found", message := "triage row not found" },
          ⟨c.committed, none⟩) ∧
      upstreamEventID "a:b" = some (utf8 "a%3Ab") := by
  have hcolon : (58 : UInt8) ∈ utf8 "a:b" := by decide
  have hescaped : Web.isUnescaped 58 = false := by decide
  have hkept : Go.keeps .path 58 = true := by decide
  have hnot : forall ids, "a:b" ∈ ids -> ¬ Readable ids := by
    intro ids hmem hread
    rcases hread.right with hagreed | hunescaped
    · have hsame := hagreed "a:b" hmem 58 hcolon
      rw [hescaped, hkept] at hsame
      cases hsame
    · have hsame := hunescaped "a:b" hmem 58 hcolon
      rw [hescaped] at hsame
      cases hsame
  have hget : getTriage "h1" "a:b" = some (handleTriageGet "h1" "a%3Ab") := by
    apply getTriage_of_params
    have hdots : forall id, id ∈ ["h1", "a:b"] -> id ≠ "." ∧ id ≠ ".." := by decide
    have hparams := urlParams_ids triageBase_plain hdots (by decide)
    have hescapes : (["h1", "a:b"].map utf8).map Web.encodeURIComponent =
        [utf8 "h1", utf8 "a%3Ab"] := by decide
    rw [← hescapes]
    exact (hparams.right (hnot _ (by decide))).right
  have hupstream : upstreamEventID "a:b" = some (utf8 "a%3Ab") := by
    have hescape : Web.encodeURIComponent (utf8 "a:b") = utf8 "a%3Ab" := by decide
    have hpresent : ¬ ("a:b" = "" ∨ "a:b" = "." ∨ "a:b" = "..") := by decide
    rcases upstreamEventID_cases hpresent with ⟨hread, _⟩ | ⟨_, hsome, _⟩
    · exact absurd hread (hnot _ (by decide))
    · rw [hsome, hescape]
  exact ⟨_, _, _, rfl, rfl, hget, rfl, hupstream⟩

end Api
end LodelineManager
