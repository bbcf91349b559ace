import DocumentSummarizer.Pipeline.Simulation

/-! # The event chain

The events of a run are a gap-free path of the state machine from its creation
to the state of its row, one event for each version.
-/

namespace DocumentSummarizer.Pipeline

open Library

/-- A path of admitted transitions, numbered from `0`, that ends in a state. -/
inductive EventChain : List PipelineEvent → PipelineState → Prop where
  | created {event} (sequenceNo : event.sequenceNo = 0) (previous : event.previousState = none)
      (next : event.nextState = .received) : EventChain [event] .received
  | extended {events state event} (chain : EventChain events state)
      (sequenceNo : event.sequenceNo = events.length)
      (previous : event.previousState = some state)
      (edge : StateMachine.isValidTransition state event.nextState = true) :
      EventChain (events ++ [event]) event.nextState

private theorem getElem?_singleton {a b : PipelineEvent} {i : Nat} (h : [a][i]? = some b) :
    i = 0 ∧ a = b := by
  cases i with
  | zero => exact ⟨rfl, Option.some.inj h⟩
  | succ i => cases h

namespace EventChain

variable {events : List PipelineEvent} {state : PipelineState}

section

variable (chain : EventChain events state)

include chain

theorem length_pos : 0 < events.length := by
  cases chain with
  | created => exact Nat.one_pos
  | extended => simp only [List.length_append, List.length_singleton, Nat.succ_pos]

theorem sequenceNo_eq_index :
    ∀ (i : Nat) e, events[i]? = some e → e.sequenceNo = i := by
  induction chain with
  | created sequenceNo =>
      intro i e h
      obtain ⟨rfl, rfl⟩ := getElem?_singleton h
      exact sequenceNo
  | @extended events state event chain sequenceNo previous edge ih =>
      intro i e h
      by_cases inside : i < events.length
      · rw [List.getElem?_append_left inside] at h
        exact ih i e h
      · rw [List.getElem?_append_right (Nat.le_of_not_lt inside)] at h
        obtain ⟨zero, rfl⟩ := getElem?_singleton h
        omega

theorem first :
    ∃ e, events[0]? = some e ∧ e.previousState = none ∧ e.nextState = .received := by
  induction chain with
  | @created event _ previous next => exact ⟨event, rfl, previous, next⟩
  | extended chain _ _ _ ih =>
      obtain ⟨e, found, shape⟩ := ih
      exact ⟨e, (List.getElem?_append_left chain.length_pos).trans found, shape⟩

theorem last :
    ∃ e, events.getLast? = some e ∧ e.nextState = state := by
  cases chain with
  | @created event _ _ next => exact ⟨event, rfl, next⟩
  | @extended _ _ event => exact ⟨event, List.getLast?_concat, rfl⟩

theorem linked :
    ∀ (i : Nat) a b, events[i]? = some a → events[i + 1]? = some b →
      b.previousState = some a.nextState ∧
        StateMachine.isValidTransition a.nextState b.nextState = true := by
  induction chain with
  | created =>
      intro i a b _ second
      cases (getElem?_singleton second).1
  | @extended events state event chain sequenceNo previous edge ih =>
      intro i a b first second
      by_cases inside : i + 1 < events.length
      · rw [List.getElem?_append_left (by omega)] at first
        rw [List.getElem?_append_left inside] at second
        exact ih i a b first second
      · rw [List.getElem?_append_right (Nat.le_of_not_lt inside)] at second
        obtain ⟨at_end, rfl⟩ := getElem?_singleton second
        obtain ⟨e, found, rfl⟩ := chain.last
        rw [List.getElem?_append_left (by omega)] at first
        rw [List.getLast?_eq_getElem?, show events.length - 1 = i by omega] at found
        obtain rfl := Option.some.inj (first.symm.trans found)
        exact ⟨previous, edge⟩

theorem nextSequenceNo_eq :
    nextSequenceNo events = events.length := by
  obtain ⟨e, found, -⟩ := chain.last
  rw [List.getLast?_eq_getElem?] at found
  have top := chain.sequenceNo_eq_index _ e found
  have member : events.length - 1 ∈ events.map (·.sequenceNo) :=
    List.mem_map.mpr ⟨e, List.mem_of_getElem? found, top⟩
  have bound : ∀ n ∈ events.map (·.sequenceNo), n ≤ events.length - 1 := by
    intro n mem
    obtain ⟨a, inside, rfl⟩ := List.mem_map.mp mem
    obtain ⟨i, lt, rfl⟩ := List.getElem_of_mem inside
    rw [chain.sequenceNo_eq_index i _ (List.getElem?_eq_getElem lt)]
    omega
  have greatest : (events.map (·.sequenceNo)).max? = some (events.length - 1) :=
    List.max?_eq_some_iff.mpr ⟨member, bound⟩
  simp only [nextSequenceNo, greatest, Option.elim]
  have := chain.length_pos
  omega

theorem sorted :
    events.Pairwise (fun a b => decide (a.sequenceNo ≤ b.sequenceNo) = true) := by
  rw [List.pairwise_iff_getElem]
  intro i j hi hj lt
  rw [chain.sequenceNo_eq_index i _ (List.getElem?_eq_getElem hi),
    chain.sequenceNo_eq_index j _ (List.getElem?_eq_getElem hj)]
  exact decide_eq_true (Nat.le_of_lt lt)

end

end EventChain

/-- No row, or a row that its events lead up to version by version. -/
structure Chained (v : RunRows) : Prop where
  absent : v.row = none → v = .absent
  present : ∀ run, v.row = some run →
    EventChain v.events run.state ∧ v.events.length = run.stateVersion

theorem Chained.start : Chained .absent where
  absent _ := rfl
  present _ h := nomatch h

/-- Each step appends the event of the edge it takes, or none. -/
theorem Chained.step {codec runId v label w} (h : Chained v) (step : Step codec runId v label w) :
    Chained w := by
  cases step with
  | @create run event absent key state version owner sequenceNo previous next =>
      obtain rfl := h.absent absent
      refine ⟨nofun, fun run' row => ?_⟩
      obtain rfl := Option.some.inj row
      rw [state, version]
      exact ⟨.created sequenceNo previous next, rfl⟩
  | @move run m stage reason now eventId row key state edge room permitted =>
      obtain ⟨chain, length⟩ := h.present run row
      refine ⟨nofun, fun run' row' => ?_⟩
      obtain rfl := Option.some.inj row'
      simp only [RunRows.advance, Move.record_events, chain.nextSequenceNo_eq, List.length_append,
        List.length_singleton, length]
      rw [← state] at edge
      exact ⟨.extended chain length.symm rfl edge, rfl⟩
  | @attempt run ordinal row present state absent synthesized =>
      refine ⟨fun none => ?_, fun run' row' => h.present run' row'⟩
      cases present.symm.trans none
  | @handOff run present state =>
      refine ⟨fun none => ?_, fun run' row' => h.present run' row'⟩
      cases present.symm.trans none

theorem Reachable.chained {codec s} (h : Reachable codec s) (runId : String) :
    Chained (s.rowsOf runId) :=
  h.rows_invariant Chained.start fun _ _ _ chained step => chained.step step

theorem listPipelineEvents_eq {codec s} (h : Reachable codec s) {runId run}
    (found : getPipelineRun s runId = some run) :
    listPipelineEvents s runId = (s.rowsOf runId).events :=
  List.mergeSort_of_pairwise ((h.chained runId).present run found).1.sorted

/-- The events of every run of every reachable store are numbered without a gap, start
with its creation, follow the state machine's edges and end in its row's state, at the
version that counts them; a refused operation changes nothing. -/
theorem event_list_is_gap_free_chain (codec : Codec) :
    (∀ s, Reachable codec s → ∀ runId run, getPipelineRun s runId = some run →
      let events := listPipelineEvents s runId
      (∀ (i : Nat) e, events[i]? = some e → e.sequenceNo = i) ∧
      (∃ e, events[0]? = some e ∧ e.previousState = none ∧ e.nextState = .received) ∧
      (∀ (i : Nat) a b, events[i]? = some a → events[i + 1]? = some b →
        b.previousState = some a.nextState ∧
          StateMachine.isValidTransition a.nextState b.nextState = true) ∧
      (∃ e, events.getLast? = some e ∧ e.nextState = run.state) ∧
      run.stateVersion = events.length) ∧
    (∀ s, Reachable codec s → ∀ (call : Call) e, call.result codec s = .error e →
      call.after codec s = s) := by
  refine ⟨fun s reach runId run found => ?_, fun s _ call e => after_of_error⟩
  rw [listPipelineEvents_eq reach found]
  obtain ⟨chain, length⟩ := (reach.chained runId).present run found
  exact ⟨chain.sequenceNo_eq_index, chain.first, chain.linked, chain.last, length.symm⟩

theorem ingested_run_has_event_chain :
    ∃ run, getPipelineRun ingestedStore "root" = some run ∧
      run.stateVersion = (listPipelineEvents ingestedStore "root").length := by
  have stored : (getPipelineRun ingestedStore "root").isSome = true := by
    decide +kernel
  obtain ⟨run, found⟩ := Option.isSome_iff_exists.mp stored
  have chain := (event_list_is_gap_free_chain sampleCodec).1 ingestedStore
    (reachable_afterCalls _ _) "root" run found
  exact ⟨run, found, chain.2.2.2.2⟩

end DocumentSummarizer.Pipeline
