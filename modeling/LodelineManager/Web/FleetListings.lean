import LodelineManager.Api.ListQueries
import LodelineManager.Fleet.PageWire
import LodelineManager.Web.BuildQuery
import LodelineManager.Web.RelayedPages

/-!
# The tabs of the fleet page

Devices, risk and compliance are listed page by page: the browser writes a query, the handler
reads it and asks the server, the body of the answer is decoded and written again, and its
cursor is what the browser asks from next.
-/

namespace LodelineManager
namespace Web

open Foundation Go JSON Fleet Api BuildQuery

/-!
## Requests of the browser
-/

inductive HostSort where
  | lastSeen
  | risk
  | hostID

def HostSort.text : HostSort -> String
  | .lastSeen => "last_seen"
  | .risk => "risk"
  | .hostID => "host_id"

structure HostsParams where
  cursor : Option String := none
  limit : Option IntNumber := none
  status : Option String := none
  sort : Option HostSort := none

structure RiskParams where
  cursor : Option String := none
  limit : Option IntNumber := none
  tool : Option (List String) := none
  minBucket : Option GuardBucket := none

structure ComplianceParams where
  cursor : Option String := none
  limit : Option IntNumber := none

def fleetHosts (p : HostsParams) : ByteString :=
  let query := setText [] "cursor" p.cursor
  let query := setLimit query p.limit
  let query := setText query "status" p.status
  SearchParams.toQuery (setText query "sort" (p.sort.map HostSort.text))

def fleetRisk (p : RiskParams) : ByteString :=
  let q := setText [] "cursor" p.cursor
  let q := setLimit q p.limit
  let q := setList q "tool" p.tool
  SearchParams.toQuery (setText q "min_bucket" (p.minBucket.map GuardBucket.text))

def fleetCompliance (p : ComplianceParams) : ByteString :=
  let q := setText [] "cursor" p.cursor
  SearchParams.toQuery (setLimit q p.limit)

/-!
## What the handlers read
-/

section

variable {params : SearchParams}

theorem get_toQuery {key : String} (hkey : Ascii key) {text : String}
    (h : (params.getAll key).headD "" = text) :
    (parseQuery params.toQuery).get (bytesOf key) = utf8 text := by
  have hvalues := SearchParams.values_toQuery params key
  rw [utf8_ascii hkey] at hvalues
  unfold Values.get
  rw [hvalues, ← h]
  cases params.getAll key <;> rfl

end

def limitText (limit : Option IntNumber) : ByteString := utf8 ((limit.map IntNumber.text).getD "")

theorem splitComma_eq (v : ByteString) :
    splitComma v = ((v.splitOn comma).map Go.trimSpace).filter (fun p => decide (p ≠ [])) := by
  unfold splitComma
  split
  · rename_i hv
    rw [hv]
    rfl
  · rfl

theorem splitComma_joined (parts : List ByteString) :
    splitComma (joinComma parts) = parts.flatMap splitComma := by
  induction parts with
  | nil => rfl
  | cons p rest ih =>
      cases rest with
      | nil =>
          rw [List.flatMap_singleton]
          exact congrArg splitComma List.intercalate_singleton
      | cons q rest =>
          have hjoin : joinComma (p :: q :: rest) = p ++ comma :: joinComma (q :: rest) :=
            List.intercalate_cons_cons.trans (List.append_assoc _ _ _)
          rw [hjoin, List.flatMap_cons, ← ih, splitComma_eq, splitComma_eq p,
            splitComma_eq (joinComma _), List.splitOn_append_cons_self, List.map_append,
            List.filter_append]

theorem splitComma_list (list : List String) :
    splitComma (utf8 (join list)) = list.flatMap (fun text => splitComma (utf8 text)) := by
  rw [utf8_join, splitComma_joined, List.flatMap_map]

theorem splitComma_texts_iff (list : List String) :
    list.flatMap (fun text => splitComma (utf8 text)) = list.map utf8 <->
      forall text, text ∈ list -> IsEntry (utf8 text) := by
  constructor
  · intro hsame text htext
    have hmem : utf8 text ∈ list.flatMap (fun text => splitComma (utf8 text)) := by
      rw [hsame]
      exact List.mem_map_of_mem htext
    rcases List.mem_flatMap.mp hmem with ⟨_, _, hpart⟩
    exact isEntry_of_mem_splitComma hpart
  · intro hentries
    rw [← splitComma_list, utf8_join]
    apply splitComma_joinComma
    intro p hp
    rcases List.mem_map.mp hp with ⟨text, htext, heq⟩
    rw [← heq]
    exact hentries text htext

section

variable {n : Int}

theorem read_fleetHosts (p : HostsParams) (hn : parseLimit (limitText p.limit) = some n) :
    Listing.hosts.read (fleetHosts p) = .ok (.fleetHosts
      { cursor := utf8 (p.cursor.getD ""), limit := n
        status := splitComma (utf8 (p.status.getD "")), bucket := []
        sort := utf8 ((p.sort.map HostSort.text).getD "") }) := by
  have hascii : Ascii "cursor" ∧ Ascii "limit" ∧ Ascii "status" ∧ Ascii "bucket" ∧
      Ascii "sort" := by
    refine ⟨?_, ?_, ?_, ?_, ?_⟩
    all_goals exact ascii_of_all (by decide +kernel)
  rcases hascii with ⟨hc, hl, hs, hb, ho⟩
  have hnil : forall name, SearchParams.getAll [] name = [] := fun _ => rfl
  have hcursor : (parseQuery (fleetHosts p)).get (bytesOf "cursor") = utf8 (p.cursor.getD "") := by
    apply get_toQuery hc
    simp (disch := decide) only [getAll_setText_ne, getAll_setLimit_ne, getAll_setText, hnil,
      headD_text]
  have hlimit : (parseQuery (fleetHosts p)).get (bytesOf "limit") = limitText p.limit := by
    apply get_toQuery hl
    simp (disch := decide) only [getAll_setText_ne, getAll_setLimit, hnil]
    cases p.limit <;> rfl
  have hstatus : (parseQuery (fleetHosts p)).get (bytesOf "status") = utf8 (p.status.getD "") := by
    apply get_toQuery hs
    simp (disch := decide) only [getAll_setText_ne, getAll_setLimit_ne, getAll_setText, hnil,
      headD_text]
  have hbucket : (parseQuery (fleetHosts p)).get (bytesOf "bucket") = utf8 "" := by
    apply get_toQuery hb
    simp (disch := decide) only [getAll_setText_ne, getAll_setLimit_ne, hnil]
    rfl
  have hsort : (parseQuery (fleetHosts p)).get (bytesOf "sort") =
      utf8 ((p.sort.map HostSort.text).getD "") := by
    apply get_toQuery ho
    simp (disch := decide) only [getAll_setText_ne, getAll_setLimit_ne, getAll_setText, hnil,
      headD_text]
  rw [read_eq_call, hlimit, hn]
  simp only [Listing.call, hcursor, hstatus, hbucket, hsort]
  rfl

theorem read_fleetRisk (p : RiskParams) (hn : parseLimit (limitText p.limit) = some n) :
    Listing.risk.read (fleetRisk p) = .ok (.fleetRisk
      { cursor := utf8 (p.cursor.getD ""), limit := n
        tool := (p.tool.getD []).flatMap (fun text => splitComma (utf8 text))
        minBucket := utf8 ((p.minBucket.map GuardBucket.text).getD "") }) := by
  have hascii : Ascii "cursor" ∧ Ascii "limit" ∧ Ascii "tool" ∧ Ascii "min_bucket" := by
    refine ⟨?_, ?_, ?_, ?_⟩
    all_goals exact ascii_of_all (by decide +kernel)
  rcases hascii with ⟨hc, hl, ht, hb⟩
  have hnil : forall name, SearchParams.getAll [] name = [] := fun _ => rfl
  have hcursor : (parseQuery (fleetRisk p)).get (bytesOf "cursor") = utf8 (p.cursor.getD "") := by
    apply get_toQuery hc
    simp (disch := decide) only [getAll_setText_ne, getAll_setLimit_ne, getAll_setList_ne,
      getAll_setText, hnil, headD_text]
  have hlimit : (parseQuery (fleetRisk p)).get (bytesOf "limit") = limitText p.limit := by
    apply get_toQuery hl
    simp (disch := decide) only [getAll_setText_ne, getAll_setList_ne, getAll_setLimit, hnil]
    cases p.limit <;> rfl
  have htool : (parseQuery (fleetRisk p)).get (bytesOf "tool") = utf8 (join (p.tool.getD [])) := by
    apply get_toQuery ht
    simp (disch := decide) only [getAll_setText_ne, getAll_setLimit_ne, getAll_setList, hnil,
      headD_join]
  have hbucket : (parseQuery (fleetRisk p)).get (bytesOf "min_bucket") =
      utf8 ((p.minBucket.map GuardBucket.text).getD "") := by
    apply get_toQuery hb
    simp (disch := decide) only [getAll_setText_ne, getAll_setLimit_ne, getAll_setList_ne,
      getAll_setText, hnil, headD_text]
  rw [read_eq_call, hlimit, hn]
  simp only [Listing.call, hcursor, htool, hbucket, splitComma_list]

theorem read_fleetCompliance (p : ComplianceParams) (hn : parseLimit (limitText p.limit) = some n) :
    Listing.compliance.read (fleetCompliance p) =
      .ok (.fleetCompliance { cursor := utf8 (p.cursor.getD ""), limit := n }) := by
  have hascii : Ascii "cursor" ∧ Ascii "limit" :=
    ⟨ascii_of_all (by decide +kernel), ascii_of_all (by decide +kernel)⟩
  have hnil : forall name, SearchParams.getAll [] name = [] := fun _ => rfl
  have hcursor : (parseQuery (fleetCompliance p)).get (bytesOf "cursor") =
      utf8 (p.cursor.getD "") := by
    apply get_toQuery hascii.left
    simp (disch := decide) only [getAll_setLimit_ne, getAll_setText, hnil, headD_text]
  have hlimit : (parseQuery (fleetCompliance p)).get (bytesOf "limit") = limitText p.limit := by
    apply get_toQuery hascii.right
    simp (disch := decide) only [getAll_setText_ne, getAll_setLimit, hnil]
    cases p.limit <;> rfl
  rw [read_eq_call, hlimit, hn]
  simp only [Listing.call, hcursor]

end

/-!
## Tabs
-/

inductive DeviceStatus where
  | healthy
  | stale
  | disconnected

def DeviceStatus.text : DeviceStatus -> String
  | .healthy => "healthy"
  | .stale => "stale"
  | .disconnected => "disconnected"

structure RiskFilter where
  minBucket : GuardBucket
  tool : List String

/-- A tab with the filter that its address holds. -/
inductive Tab where
  | devices (status : Option DeviceStatus)
  | risk (filter : RiskFilter)
  | compliance

def hundred : IntNumber := ⟨100, by decide, by decide⟩

namespace Tab

def listing : Tab -> Listing
  | .devices _ => .hosts
  | .risk _ => .risk
  | .compliance => .compliance

/-- The query of {lit}`fetchPage`. -/
def request : Tab -> Option String -> ByteString
  | .devices status, cursor =>
      fleetHosts
        { cursor := cursor, limit := some hundred, status := status.map DeviceStatus.text
          sort := some .hostID }
  | .risk filter, cursor =>
      fleetRisk
        { cursor := cursor, limit := some hundred
          tool := if filter.tool.length = 0 then none else some filter.tool
          minBucket := some filter.minBucket }
  | .compliance, cursor => fleetCompliance { cursor := cursor, limit := some hundred }

def tools : Tab -> List String
  | .risk filter => filter.tool
  | _ => []

def asked (tools : List ByteString) (cursor : ByteString) : Tab -> CachedCall
  | .devices status =>
      .fleetHosts
        { cursor := cursor, limit := 100, status := (status.map (utf8 ∘ DeviceStatus.text)).toList
          bucket := [], sort := utf8 "host_id" }
  | .risk filter =>
      .fleetRisk
        { cursor := cursor, limit := 100, tool := tools, minBucket := utf8 filter.minBucket.text }
  | .compliance => .fleetCompliance { cursor := cursor, limit := 100 }

theorem parseLimit_hundred : parseLimit (limitText (some hundred)) = some 100 := by
  decide +kernel

theorem splitComma_status (status : Option DeviceStatus) :
    splitComma (utf8 ((status.map DeviceStatus.text).getD "")) =
      (status.map (utf8 ∘ DeviceStatus.text)).toList := by
  cases status with
  | none => rfl
  | some status => cases status <;> decide +kernel

theorem read_request (tab : Tab) (cursor : Option String) :
    exists tools, tab.listing.read (tab.request cursor) =
        .ok (tab.asked tools (utf8 (cursor.getD ""))) ∧
      (tools = tab.tools.map utf8 <-> forall tool, tool ∈ tab.tools -> IsEntry (utf8 tool)) := by
  refine ⟨tab.tools.flatMap (fun text => splitComma (utf8 text)), ?_, splitComma_texts_iff _⟩
  cases tab with
  | devices status =>
      refine (read_fleetHosts _ parseLimit_hundred).trans ?_
      rw [splitComma_status]
      rfl
  | risk filter =>
      refine (read_fleetRisk _ parseLimit_hundred).trans ?_
      have htool : (if filter.tool.length = 0 then none else some filter.tool).getD [] =
          filter.tool := by
        split
        · rename_i hempty
          exact (List.length_eq_zero_iff.mp hempty).symm
        · rfl
      rw [htool]
      rfl
  | compliance => exact read_fleetCompliance _ parseLimit_hundred

/-!
## Pages of the browser
-/

section

variable {float : Type} (F : Floats float)

def relay (tab : Tab) (body : Document) : Option Document :=
  match tab with
  | .devices _ => Wire.relay (Wire.hostsPage F).codec body
  | .risk _ => Wire.relay (Wire.riskPage F).codec body
  | .compliance => Wire.relay Wire.compliancePage.codec body

def rowsName : Tab -> String
  | .devices _ => "hosts"
  | _ => "rows"

/-- What is said of a row. -/
def RowSays (tab : Tab) : List Value -> Value -> Prop :=
  match tab with
  | .devices _ => (Wire.hostSummary F).codec.Says
  | .risk _ => (Wire.riskRow F).codec.Says
  | .compliance => Wire.complianceRow.codec.Says

/-- What is said of the rows of a page. -/
def RowsSay (tab : Tab) : List Value -> Value -> Prop :=
  match tab with
  | .devices _ => (Wire.hostSummary F).codec.slice.Says
  | .risk _ => (Wire.riskRow F).codec.slice.Says
  | .compliance => Wire.complianceRow.codec.slice.Says

def rowsIn (tab : Tab) (body : Document) : List (List Value) :=
  (slotsOf (fieldValues tab.rowsName (value body))).getD []

def hostIDIn (row : List Value) : ByteString := utf8 (lastText (membersOf "host_id" row))

/-- {lit}`page.next_cursor`. -/
def nextCursor (page : Value) : Option ByteString :=
  ((get? "next_cursor" page).bind asText).map utf8

/-- {lit}`select(page) ?? []`. -/
def select (tab : Tab) (page : Value) : List Value := ((get? tab.rowsName page).getD .null).items

/-- {lit}`row.host_id`. -/
def rowID (row : Value) : ByteString :=
  (((get? "host_id" row).bind asText).map utf8).getD []

def cursorOf (body : Document) : Option String := optionalTextIn "next_cursor" (value body)

theorem relay_says {tab : Tab} {body d : Document} (h : tab.relay F body = some d) :
    nextCursor (value d) = (cursorOf body).map utf8 ∧
      tab.RowsSay F (fieldValues tab.rowsName (value body))
        ((get? tab.rowsName (value d)).getD .null) := by
  have hcursor : get? "next_cursor" (value d) = some (ofOptionalText (cursorOf body)) ->
      nextCursor (value d) = (cursorOf body).map utf8 := by
    intro hget
    unfold nextCursor
    rw [hget, Option.bind_some, asText_ofOptionalText]
  cases tab with
  | devices status =>
      have hsays := Wire.hostsPage_says h
      exact ⟨hcursor hsays.nextCursor, hsays.rows⟩
  | risk filter =>
      have hsays := Wire.riskPage_says h
      exact ⟨hcursor hsays.nextCursor, hsays.rows⟩
  | compliance =>
      have hsays := Wire.compliancePage_says h
      exact ⟨hcursor hsays.nextCursor, hsays.rows⟩

theorem rowID_eq {row : Value} {text : String} (h : get? "host_id" row = some (ofText text)) :
    rowID row = utf8 text := by
  unfold rowID
  rw [h, Option.bind_some, asText_ofText]
  rfl

theorem RowSays.rowID_eq {tab : Tab} {row : List Value} {w : Value} (h : tab.RowSays F row w) :
    hostIDIn row = rowID w := by
  have hid : get? "host_id" w = some (ofText (lastText (membersOf "host_id" row))) := by
    cases tab with
    | devices status =>
        rcases Schema.says_plain _ (List.mem_of_getElem? (i := 0) rfl) h with ⟨y, hy, hsays⟩
        exact hy.trans (congrArg some hsays)
    | risk filter =>
        rcases Schema.says_plain _ (List.mem_of_getElem? (i := 0) rfl) h with ⟨y, hy, hsays⟩
        exact hy.trans (congrArg some hsays)
    | compliance =>
        rcases Schema.says_plain _ (List.mem_of_getElem? (i := 0) rfl) h with ⟨y, hy, hsays⟩
        exact hy.trans (congrArg some hsays)
  exact (Tab.rowID_eq hid).symm

theorem select_says {tab : Tab} {body : Document} {page : Value}
    (h : tab.RowsSay F (fieldValues tab.rowsName (value body))
      ((get? tab.rowsName page).getD .null)) :
    List.Forall₂ (tab.RowSays F) (tab.rowsIn body) (tab.select page) := by
  unfold rowsIn select
  cases tab with
  | devices status => exact Codec.slice_says_items _ h
  | risk filter => exact Codec.slice_says_items _ h
  | compliance => exact Codec.slice_says_items _ h

end

end Tab

/-!
## Runs of a tab
-/

/-- Polls and clicks, a body of the server that is passed on, and a request that fails. -/
inductive FleetTabLabel where
  | poll
  | loadMore
  | answer (body : Document)
  | fail

section

variable {float : Type} (F : Floats float) (tab : Tab)

def FleetTabLabel.base : FleetTabLabel -> Option (QueryLabel Value)
  | .poll => some .poll
  | .loadMore => some .loadMore
  | .answer body => (tab.relay F body).map (fun d => .respond (value d))
  | .fail => some .fail

def Tab.step (q : PagedFleet Value) (l : FleetTabLabel) : Option (PagedFleet Value) :=
  (l.base F tab).bind (q.step Tab.nextCursor)

def Tab.bodyCursor (body : Document) : Option ByteString := (cursorOf body).map utf8

/-- The cursors that bodies are asked from, the first one from {lit}`c`. -/
def chainFrom (c : Option ByteString) (bodies : List Document) : List (Option ByteString) :=
  cursorsFrom Tab.bodyCursor c bodies

/-- A page of the browser is a body of the server that was passed on. -/
def Passed (labels : List FleetTabLabel) (body : Document) (page : Value) : Prop :=
  FleetTabLabel.answer body ∈ labels ∧ exists d, tab.relay F body = some d ∧ page = value d

end

section

variable {float : Type} {F : Floats float} {tab : Tab} {q : PagedFleet Value}
  {labels : List FleetTabLabel}

theorem Passed.next {body : Document} {page : Value} (h : Passed F tab labels body page) :
    Tab.nextCursor page = Tab.bodyCursor body := by
  rcases h with ⟨_, w, hw, hpage⟩
  rw [hpage]
  exact (Tab.relay_says F hw).left

theorem FleetTabLabel.passed {l : FleetTabLabel} {page : Value} (hl : l ∈ labels)
    (hbase : l.base F tab = some (.respond page)) : exists body, Passed F tab labels body page := by
  cases l with
  | answer body =>
      rcases Option.map_eq_some_iff.mp hbase with ⟨w, hw, heq⟩
      cases heq
      exact ⟨body, hl, w, hw, rfl⟩
  | poll => cases hbase
  | loadMore => cases hbase
  | fail => cases hbase

theorem tabOk_run (hrun : runSteps (tab.step F) PagedFleet.mounted labels = some q) :
    RelayedOk Tab.bodyCursor (Passed F tab labels) q :=
  relayedOk_run (fun _ _ => Passed.next) (fun _ _ => FleetTabLabel.passed) hrun

end

/-- Every request of a tab asks the server for the filter of the tab, without a cursor or from
the one of a body of the server; and the screen shows the rows of such bodies, each asked from
the cursor of the one before, in order and the first of each host. -/
theorem tab_follows_cursors {float : Type} (F : Floats float) (tab : Tab)
    (labels : List FleetTabLabel) (q : PagedFleet Value)
    (hrun : runSteps (tab.step F) PagedFleet.mounted labels = some q) :
    (forall f, q.fetching = some f -> exists cursor : Option String,
      f.cursor = cursor.map utf8 ∧
      (exists tools, tab.listing.read (tab.request cursor) =
          .ok (tab.asked tools (utf8 (cursor.getD ""))) ∧
        (tools = tab.tools.map utf8 <-> forall tool, tool ∈ tab.tools -> IsEntry (utf8 tool))) ∧
      forall c, cursor = some c -> c ≠ "" ∧
        exists body, FleetTabLabel.answer body ∈ labels ∧ Tab.cursorOf body = some c) ∧
    forall d, q.data = some d -> exists bodies, bodies ≠ [] ∧
      d.pageParams = chainFrom none bodies ∧
      List.Forall₂ (fun body page => FleetTabLabel.answer body ∈ labels ∧
        tab.RowsSay F (fieldValues tab.rowsName (value body))
          ((get? tab.rowsName page).getD .null)) bodies d.pages ∧
      List.Forall₂ (tab.RowSays F) (keepFirst Tab.hostIDIn [] (bodies.flatMap tab.rowsIn))
        (d.rows tab.select Tab.rowID) := by
  have hok := tabOk_run hrun
  constructor
  · intro f hf
    rcases hok.exists_cursor hf with ⟨cursor, hcursor, hgiven⟩
    refine ⟨cursor, hcursor, tab.read_request cursor, ?_⟩
    intro c hc
    rcases hgiven c hc with ⟨hne, body, page, hcame, hbody⟩
    exact ⟨hne, body, hcame.left, hbody⟩
  · intro d hd
    rcases hok.data d hd with ⟨bodies, hne, hpages⟩
    have hsays : List.Forall₂ (fun body page => FleetTabLabel.answer body ∈ labels ∧
        tab.RowsSay F (fieldValues tab.rowsName (value body))
          ((get? tab.rowsName page).getD .null)) bodies d.pages := by
      refine hpages.pages.imp ?_
      rintro body page ⟨hcame, w, hw, hpage⟩
      rw [hpage]
      exact ⟨hcame, (tab.relay_says F hw).right⟩
    have hrows : List.Forall₂ (tab.RowSays F) (bodies.flatMap tab.rowsIn)
        (d.pages.flatMap tab.select) :=
      List.rel_flatMap hsays (fun _ _ h => Tab.select_says F h.right)
    have hids : forall row w, tab.RowSays F row w -> Tab.hostIDIn row = Tab.rowID w :=
      fun _ _ => Tab.RowSays.rowID_eq F
    exact ⟨bodies, hne, hpages.params, hsays, forall₂_keepFirst hids hrows []⟩

def nextOfDevices : List FleetTabLabel := [.answer Wire.namedTwice, .loadMore]

theorem tab_follows_cursors_nextOfDevices :
    exists q f, runSteps ((Tab.devices none).step Wire.unitFloats) PagedFleet.mounted
        nextOfDevices = some q ∧ q.fetching = some f ∧ f.cursor = some (utf8 "a") ∧
      Listing.hosts.read ((Tab.devices none).request (some "a")) =
        .ok ((Tab.devices none).asked [] (utf8 "a")) := by
  have hrun : ((runSteps ((Tab.devices none).step Wire.unitFloats) PagedFleet.mounted
      nextOfDevices).bind (fun q => q.fetching.map Fetch.cursor)) = some (some (utf8 "a")) := by
    decide +kernel
  rcases Option.bind_eq_some_iff.mp hrun with ⟨q, hq, hfetching⟩
  rcases Option.map_eq_some_iff.mp hfetching with ⟨f, hf, hcursor⟩
  rcases (tab_follows_cursors Wire.unitFloats (.devices none) nextOfDevices q hq).left f hf with
    ⟨cursor, hsame, ⟨tools, hread, htools⟩, _⟩
  rw [hcursor] at hsame
  rcases Option.map_eq_some_iff.mp hsame.symm with ⟨s, hs, heq⟩
  have hnone : tools = [] := htools.mpr (fun _ htool => absurd htool List.not_mem_nil)
  rw [hs, utf8_injective heq, hnone] at hread
  exact ⟨q, f, hq, hf, hcursor, hread⟩

end Web
end LodelineManager
