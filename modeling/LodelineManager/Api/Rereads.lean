import LodelineManager.Api.TriageGet
import LodelineManager.Triage.History

/-!
# Looking at an alert again

Two gets of one alert, one after the other, whatever is written before, between and
during them: the second goes on with the history that the first has shown.
-/

namespace LodelineManager
namespace Api

open Foundation SingleConnection Go Triage

/-- The second body goes on with the history of the first. -/
structure GoesOn (body body' : GetResponse) : Prop where
  hostID : body'.row.hostID = body.row.hostID
  eventID : body'.row.eventID = body.row.eventID
  created : body'.row.createdAt = body.row.createdAt
  evidence : body'.row.evidenceSnapshot = body.row.evidenceSnapshot
  notes : body.notes.Sublist body'.notes
  log : body.log <+: body'.log

theorem notesShown_extends {key : String × String} {d d' : Db} (h : Extends key d d') :
    (notesShown d key).Sublist (notesShown d' key) := by
  rcases h.notes with ⟨more, hmore⟩
  unfold notesShown
  rw [← hmore]
  exact (insertionSort_append_sublist (notesOf d key) more).map scanNote

section

variable {ident : Type} [DecidableEq ident] {fk : Bool} {calls : ident -> WriteCall}

theorem extends_of_run {s s' : Writers ident} {labels : List (WriterEvent ident)}
    (h : Timely fk calls s) (hrun : runSteps (Writers.step fk calls) s labels = some s')
    (key : String × String) : Extends key s.store.committed s'.store.committed := by
  rcases h.tookEffect hrun with ⟨order, horder⟩
  exact horder.extends key

/-- A get that answers was answered by three states on the way, and by what they hold. -/
theorem get_between {hostID eventID : String} {s : Writers ident}
    {events : List (ReaderEvent (WriterEvent ident) SqlErr)}
    {t : WithReader (Writers ident) Stmt Stmt.Res SqlErr (Except ErrorResponse GetResponse)}
    {body : GetResponse} (hs : Timely fk calls s)
    (hrun : runSteps (WithReader.step (engine fk) (writersAround fk calls))
      ⟨s, handleTriageGet hostID eventID⟩ events = some t)
    (hret : t.reader = .ret (.ok body)) :
    Timely fk calls t.rest ∧ exists d1 d2 d3 r,
      d1.triage.find? (hostID, eventID) = some r ∧
      body = getResponse (scanRow r) (notesShown d2 (hostID, eventID))
        (logShown d3 (hostID, eventID)) ∧
      (entriesOf d3 (hostID, eventID)).insertionSort logOrder = entriesOf d3 (hostID, eventID) ∧
      forall d, d = d1 ∨ d = d2 ∨ d = d3 ->
        Extends (hostID, eventID) s.store.committed d ∧
          Extends (hostID, eventID) d t.rest.store.committed := by
  have hreads := WithReader.readsAlong (onlyReads_handleTriageGet fk hostID eventID) hrun hret
  have hwhole : runSteps (Writers.step fk calls) s (events.filterMap ReaderEvent.label?) =
      some t.rest := hreads.runs
  rcases reads_handleTriageGet hreads with
    ⟨l1, l2, l3, l4, s1, s2, s3, r, hlabels, hrun1, hrun2, hrun3, hr, hbody, _⟩
  have hto2 : runSteps (Writers.step fk calls) s (l1 ++ l2) = some s2 := by
    rw [runSteps_append, show runSteps (Writers.step fk calls) s l1 = some s1 from hrun1]
    exact hrun2
  have hto3 : runSteps (Writers.step fk calls) s (l1 ++ l2 ++ l3) = some s3 := by
    rw [runSteps_append, hto2]
    exact hrun3
  rw [hlabels, runSteps_append, hto3] at hwhole
  have hrun4 : runSteps (Writers.step fk calls) s3 l4 = some t.rest := hwhole
  have h1 : Timely fk calls s1 := timely_run hs hrun1
  have h2 : Timely fk calls s2 := timely_run h1 hrun2
  have h3 : Timely fk calls s3 := timely_run h2 hrun3
  have h34 := extends_of_run h3 hrun4 (hostID, eventID)
  have h23 := extends_of_run h2 hrun3 (hostID, eventID)
  have h12 := extends_of_run h1 hrun2 (hostID, eventID)
  have h01 := extends_of_run hs hrun1 (hostID, eventID)
  refine ⟨timely_run h3 hrun4, s1.store.committed, s2.store.committed, s3.store.committed, r, hr,
    hbody, h3.chronological.logInTimeOrder _, ?_⟩
  rintro d (rfl | rfl | rfl)
  · exact ⟨h01, h12.trans (h23.trans h34)⟩
  · exact ⟨h01.trans h12, h23.trans h34⟩
  · exact ⟨(h01.trans h12).trans h23, h34⟩

/-- Two gets of one alert, one after the other, among any writes and failures: the second
shows the row with the time and the evidence that the first showed, all its notes, and its
log with what came after it. -/
theorem second_get_goes_on {clock : Int} {labels : List (WriterEvent ident)} {s : Writers ident}
    (hclock : Time.InRange clock)
    (hstart : runSteps (Writers.step fk calls) (Writers.start calls clock) labels = some s)
    {hostID eventID : String}
    {events events' : List (ReaderEvent (WriterEvent ident) SqlErr)}
    {t t' : WithReader (Writers ident) Stmt Stmt.Res SqlErr (Except ErrorResponse GetResponse)}
    {s' : Writers ident} {waits : List (WriterEvent ident)} {body body' : GetResponse}
    (hrun : runSteps (WithReader.step (engine fk) (writersAround fk calls))
      ⟨s, handleTriageGet hostID eventID⟩ events = some t)
    (hret : t.reader = .ret (.ok body))
    (hwait : runSteps (Writers.step fk calls) t.rest waits = some s')
    (hrun' : runSteps (WithReader.step (engine fk) (writersAround fk calls))
      ⟨s', handleTriageGet hostID eventID⟩ events' = some t')
    (hret' : t'.reader = .ret (.ok body')) :
    GoesOn body body' := by
  have hs : Timely fk calls s := timely_run (timely_start fk calls hclock) hstart
  rcases get_between hs hrun hret with ⟨ht, d1, d2, d3, r, hr, hbody, hsorted, hto⟩
  have hs' : Timely fk calls s' := timely_run ht hwait
  rcases get_between hs' hrun' hret' with ⟨_, d1', d2', d3', r', hr', hbody', hsorted', hfrom⟩
  have hgap := extends_of_run ht hwait (hostID, eventID)
  -- every state of the first get comes before every state of the second one
  have hacross : forall d d', d = d1 ∨ d = d2 ∨ d = d3 -> d' = d1' ∨ d' = d2' ∨ d' = d3' ->
      Extends (hostID, eventID) d d' := by
    intro d d' hd hd'
    exact (hto d hd).right.trans (hgap.trans (hfrom d' hd').left)
  have hrow := hacross d1 d1' (Or.inl rfl) (Or.inl rfl)
  have hnotes := hacross d2 d2' (Or.inr (Or.inl rfl)) (Or.inr (Or.inl rfl))
  have hlog := hacross d3 d3' (Or.inr (Or.inr rfl)) (Or.inr (Or.inr rfl))
  rcases hrow.row r hr with ⟨r'', hr'', hcreated, hevidence⟩
  rw [hr'] at hr''
  cases hr''
  have hkey : (r.hostID, r.eventID) = (hostID, eventID) := (KeyedTable.find?_eq_some_iff.mp hr).right
  have hkey' : (r'.hostID, r'.eventID) = (hostID, eventID) :=
    (KeyedTable.find?_eq_some_iff.mp hr').right
  have hsame := hkey'.trans hkey.symm
  rw [hbody, hbody']
  refine ⟨congrArg Prod.fst hsame, congrArg Prod.snd hsame, ?_, hevidence, ?_, ?_⟩
  · show formatTS (parseTS r'.createdAt) = formatTS (parseTS r.createdAt)
    rw [hcreated]
  · exact (notesShown_extends hnotes).map noteToResponse
  · show (logShown d3 _).map logToResponse <+: (logShown d3' _).map logToResponse
    unfold logShown
    rw [hsorted, hsorted']
    exact (hlog.log.map scanLog).map logToResponse

end

/-- The alert is resolved between two gets; the second log goes on from the first. -/
theorem second_get_goes_on_resolved :
    exists s t t' s' body body',
      runSteps (Writers.step true openedAndResolved) (Writers.start openedAndResolved 0)
        (List.replicate 6 (.access (.access true none))) = some s ∧
      runSteps (WithReader.step (engine true) (writersAround true openedAndResolved))
        ⟨s, handleTriageGet "h" "e"⟩ (List.replicate 5 (.read none)) = some t ∧
      runSteps (Writers.step true openedAndResolved) t.rest
        (List.replicate 6 (.access (.access false none))) = some s' ∧
      runSteps (WithReader.step (engine true) (writersAround true openedAndResolved))
        ⟨s', handleTriageGet "h" "e"⟩ (List.replicate 5 (.read none)) = some t' ∧
      t.reader = .ret (.ok body) ∧ t'.reader = .ret (.ok body') ∧ body.log <+: body'.log := by
  have hrun : exists s t t' s' body body',
      runSteps (Writers.step true openedAndResolved) (Writers.start openedAndResolved 0)
        (List.replicate 6 (.access (.access true none))) = some s ∧
      runSteps (WithReader.step (engine true) (writersAround true openedAndResolved))
        ⟨s, handleTriageGet "h" "e"⟩ (List.replicate 5 (.read none)) = some t ∧
      runSteps (Writers.step true openedAndResolved) t.rest
        (List.replicate 6 (.access (.access false none))) = some s' ∧
      runSteps (WithReader.step (engine true) (writersAround true openedAndResolved))
        ⟨s', handleTriageGet "h" "e"⟩ (List.replicate 5 (.read none)) = some t' ∧
      t.reader = .ret (.ok body) ∧ t'.reader = .ret (.ok body') :=
    ⟨_, _, _, _, _, _, rfl, rfl, rfl, rfl, rfl, rfl⟩
  rcases hrun with ⟨s, t, t', s', body, body', hstart, hget, hwait, hget', hret, hret'⟩
  have hclock : Time.InRange 0 := by decide
  have hgoes := second_get_goes_on hclock hstart hget hret hwait hget' hret'
  exact ⟨s, t, t', s', body, body', hstart, hget, hwait, hget', hret, hret', hgoes.log⟩

end Api
end LodelineManager
