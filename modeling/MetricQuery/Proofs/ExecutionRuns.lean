import Mathlib.Data.List.Induction
import MetricQuery.Execution
import MetricQuery.Proofs.Lookups

/-!
# Runs of executions

What a transport is asked for while a query is executed, polled and aborted, told
by a record that it keeps of its calls. One request is sent, for the prepared
query. From then on every poll of the execution is one poll of the response and
every abort one call of the transport, in the order in which they are made, while
the transport may change its state by itself in between. What the response is
polled for is decoded over the parts of the query itself.
-/

set_option autoImplicit false

namespace MetricQuery

/-! ## Options -/

inductive OptionStep where
  | url (text : String)
  | header (name value : String)
  | confidence (mode : Confidence)

namespace OptionStep

def apply (options : Options) : OptionStep → Options
  | .url text => options.withUrl text
  | .header name value => options.withHeader name value
  | .confidence mode => options.withConfidence mode

def url? : OptionStep → Option String
  | .url text => some text
  | _ => none

def header? : OptionStep → Option (String × String)
  | .header name value => some (name, value)
  | _ => none

def confidence? : OptionStep → Option Confidence
  | .confidence mode => some mode
  | _ => none

def chosen (steps : List OptionStep) : Confidence :=
  (steps.filterMap confidence?).getLast?.getD .off

def headers (steps : List OptionStep) : List (String × String) :=
  steps.filterMap header?

theorem mem_headers {steps : List OptionStep} {name value : String} :
    (name, value) ∈ headers steps ↔ .header name value ∈ steps := by
  rw [headers, List.mem_filterMap]
  constructor
  · rintro ⟨step, member, held⟩
    cases step with
    | header _ _ => cases held; exact member
    | url _ => cases held
    | confidence _ => cases held
  · intro member
    exact ⟨_, member, rfl⟩

/-- A header of the name `accept` is given, in any case of its ASCII letters. -/
def GivesAccept (steps : List OptionStep) : Prop :=
  ∃ name value, .header name value ∈ steps ∧ name.toList.map Char.toLower = "accept".toList

end OptionStep

def Options.built (steps : List OptionStep) : Options :=
  steps.foldl OptionStep.apply .empty

structure Request.Follows (request : Request) (steps : List OptionStep) (text : String) : Prop where
  query : request.query = text
  url : request.url = (steps.filterMap OptionStep.url?).getLast?.getD "http://localhost:8080"
  /-- Of several headers of one name the last one counts. -/
  given : OptionStep.GivesAccept steps → ∀ name,
    request.headers.get? name = (OptionStep.headers steps).reverse.lookup name
  added : ¬OptionStep.GivesAccept steps → ∀ name, request.headers.get? name =
    if name = "accept" then some "application/json"
    else (OptionStep.headers steps).reverse.lookup name

namespace Options

theorem built_concat (steps : List OptionStep) (step : OptionStep) :
    built (steps ++ [step]) = step.apply (built steps) := by
  simp [built]

theorem built_eq (steps : List OptionStep) :
    built steps = ⟨(steps.filterMap OptionStep.url?).getLast?,
      Bindings.ofList (OptionStep.headers steps), OptionStep.chosen steps⟩ := by
  induction steps using List.reverseRecOn with
  | nil => rfl
  | append_singleton steps step ih =>
    rw [built_concat, ih]
    cases step <;> simp [OptionStep.apply, OptionStep.headers, OptionStep.chosen,
      OptionStep.url?, OptionStep.header?, OptionStep.confidence?, withUrl, withHeader,
      withConfidence, Bindings.ofList, Bindings.insertAll, List.filterMap_cons]

theorem acceptsGiven_iff (steps : List OptionStep) :
    acceptsGiven (Bindings.ofList (OptionStep.headers steps)) = true ↔
      OptionStep.GivesAccept steps := by
  have listed : ∀ name, name ∈ (Bindings.ofList (OptionStep.headers steps)).entries.map Prod.fst ↔
      ∃ value, .header name value ∈ steps := by
    intro name
    rw [← Bindings.contains_iff, Bindings.ofList, Bindings.contains_insertAll]
    simp [Bindings.contains, Bindings.empty, OptionStep.mem_headers]
  have lower : acceptHeader.toList.map Char.toLower = "accept".toList := by decide
  simp only [acceptsGiven, List.any_eq_true, Metric.sameWord, lower, beq_iff_eq]
  constructor
  · rintro ⟨entry, member, same⟩
    obtain ⟨value, given⟩ := (listed entry.1).1 (List.mem_map_of_mem member)
    exact ⟨entry.1, value, given, same⟩
  · rintro ⟨name, value, given, same⟩
    obtain ⟨entry, member, rfl⟩ := List.mem_map.1 ((listed name).2 ⟨value, given⟩)
    exact ⟨entry, member, same⟩

theorem request_follows (steps : List OptionStep) (text : String) :
    ((built steps).request text).Follows steps text := by
  rw [built_eq]
  refine ⟨rfl, rfl, fun accepted name => ?_, fun missing name => ?_⟩
  · rw [request, requestHeaders, if_pos ((acceptsGiven_iff steps).2 accepted)]
    exact Bindings.get?_ofList_reverse _ name
  · rw [request, requestHeaders, if_neg (mt (acceptsGiven_iff steps).1 missing)]
    rw [Bindings.get?_insert, Bindings.get?_ofList_reverse]
    rfl

end Options

/-! ## Records -/

inductive Transport.Call where
  | sent (request : Request)
  | polled
  | aborted

variable {σ α β : Type}

def recordedPoll (poll : σ → Option α × σ) (seen : σ × List Transport.Call) :
    Option α × (σ × List Transport.Call) :=
  ((poll seen.1).1, (poll seen.1).2, seen.2 ++ [.polled])

def recordedAbort (abort : σ → σ) (seen : σ × List Transport.Call) : σ × List Transport.Call :=
  (abort seen.1, seen.2 ++ [.aborted])

/-- A transport that keeps a record of its calls beside its state. -/
def Transport.recorded (transport : Transport σ) : Transport (σ × List Transport.Call) :=
  fun request seen =>
    let (inFlight, state) := transport request seen.1
    (⟨recordedPoll inFlight.poll, inFlight.abort.map recordedAbort⟩,
      state, seen.2 ++ [.sent request])

/-! ## Courses of events -/

/-- What happens once a request is on its way. Handles for aborting are taken in
turn, and called by their number. -/
inductive Event (σ : Type) where
  | poll
  | abort
  | takeHandle
  | callHandle (number : Nat)
  /-- The transport goes on by itself. -/
  | meanwhile (change : σ → σ)

namespace Event

/-- What a transport does by itself is not a call of it. -/
def recorded : Event σ → Event (σ × List Transport.Call)
  | .poll => .poll
  | .abort => .abort
  | .takeHandle => .takeHandle
  | .callHandle number => .callHandle number
  | .meanwhile change => .meanwhile (Prod.map change id)

/-- The calls that events make, if so many handles are taken before. There is
nothing to call under the number of a handle that is not taken yet. -/
def calls : (taken : Nat) → List (Event σ) → List Transport.Call
  | _, [] => []
  | taken, .poll :: rest => .polled :: calls taken rest
  | taken, .abort :: rest => .aborted :: calls taken rest
  | taken, .takeHandle :: rest => calls (taken + 1) rest
  | taken, .callHandle number :: rest =>
    if number < taken then .aborted :: calls taken rest else calls taken rest
  | taken, .meanwhile _ :: rest => calls taken rest

end Event

structure Course (σ α : Type) where
  state : σ
  handles : List (σ → σ)
  answers : List (Option α)

namespace Course

variable (poll : σ → Option α × σ) (abort handle : σ → σ)

def step (course : Course σ α) : Event σ → Course σ α
  | .poll => { course with
      state := (poll course.state).2
      answers := course.answers ++ [(poll course.state).1] }
  | .abort => { course with state := abort course.state }
  | .takeHandle => { course with handles := course.handles ++ [handle] }
  | .callHandle number => { course with
      state := (course.handles[number]?.getD id) course.state }
  | .meanwhile change => { course with state := change course.state }

def run (course : Course σ α) (events : List (Event σ)) : Course σ α :=
  events.foldl (step poll abort handle) course

def begin (state : σ) : Course σ α :=
  ⟨state, [], []⟩

def map (f : α → β) (course : Course σ α) : Course σ β :=
  ⟨course.state, course.handles, course.answers.map (Option.map f)⟩

theorem step_map (f : α → β) (course : Course σ α) (event : Event σ) :
    (course.map f).step (fun state => ((poll state).1.map f, (poll state).2)) abort handle event =
      (course.step poll abort handle event).map f := by
  cases event with
  | poll => simp [step, map]
  | abort => rfl
  | takeHandle => rfl
  | callHandle number => rfl
  | meanwhile change => rfl

theorem run_map (f : α → β) (course : Course σ α) (events : List (Event σ)) :
    (course.map f).run (fun state => ((poll state).1.map f, (poll state).2)) abort handle events =
      (course.run poll abort handle events).map f :=
  List.foldl_hom (map f) (step_map poll abort handle f)

def withCalls (course : Course σ α) (calls : List Transport.Call) :
    Course (σ × List Transport.Call) α :=
  ⟨(course.state, calls), course.handles.map recordedAbort, course.answers⟩

theorem step_withCalls (course : Course σ α) (calls : List Transport.Call) (event : Event σ) :
    (course.withCalls calls).step (recordedPoll poll) (recordedAbort abort) (recordedAbort handle)
        event.recorded =
      (course.step poll abort handle event).withCalls
        (calls ++ Event.calls course.handles.length [event]) := by
  cases event with
  | poll => rfl
  | abort => rfl
  | takeHandle => simp [step, withCalls, Event.recorded, Event.calls]
  | callHandle number =>
    by_cases held : number < course.handles.length
    · simp [step, withCalls, Event.recorded, Event.calls, held, recordedAbort]
    · simp [step, withCalls, Event.recorded, Event.calls, held]
  | meanwhile change => simp [step, withCalls, Event.recorded, Event.calls]

theorem calls_cons (course : Course σ α) (event : Event σ) (rest : List (Event σ)) :
    Event.calls course.handles.length (event :: rest) =
      Event.calls course.handles.length [event] ++
        Event.calls (course.step poll abort handle event).handles.length rest := by
  cases event with
  | callHandle number =>
    by_cases held : number < course.handles.length <;> simp [step, Event.calls, held]
  | _ => simp [step, Event.calls]

theorem run_withCalls (events : List (Event σ)) :
    ∀ (course : Course σ α) (calls : List Transport.Call),
      (course.withCalls calls).run (recordedPoll poll) (recordedAbort abort) (recordedAbort handle)
          (events.map Event.recorded) =
        (course.run poll abort handle events).withCalls
          (calls ++ Event.calls course.handles.length events) := by
  induction events with
  | nil =>
    intro course calls
    simp [run, Event.calls]
  | cons event rest ih =>
    intro course calls
    have later := ih (course.step poll abort handle event)
      (calls ++ Event.calls course.handles.length [event])
    rw [calls_cons poll abort handle, ← List.append_assoc]
    rw [run, List.map_cons, List.foldl_cons, step_withCalls]
    exact later

end Course

def Execution.course (execution : Execution σ) (state : σ) (events : List (Event σ)) :
    Course σ (Except QueryError (DecodedResponse Float)) :=
  (Course.begin state).run execution.poll execution.abort execution.abortHandle events

/-- The course of a request whose response is polled and whose callback is called
directly. -/
def InFlight.course (inFlight : InFlight σ) (abort : σ → σ) (state : σ)
    (events : List (Event σ)) : Course σ (Except String (Response Float)) :=
  (Course.begin state).run inFlight.poll abort abort events

/-! ## Executions -/

theorem execute_of_not_abortable {query : Query} {options : Options} (transport : Transport σ)
    (state : σ) {text : String} (rendered : (query.prepared options.confidence).render = .ok text)
    (missing : (transport (options.request text) state).1.abort = none) :
    query.execute transport options state =
      (.error .notAbortable, (transport (options.request text) state).2) := by
  simp only [Query.execute, rendered, missing]

theorem execute_of_abortable {query : Query} {options : Options} (transport : Transport σ)
    (state : σ) {text : String} (rendered : (query.prepared options.confidence).render = .ok text)
    {abort : σ → σ} (given : (transport (options.request text) state).1.abort = some abort) :
    query.execute transport options state =
      (.ok ⟨text, (transport (options.request text) state).1.poll, abort,
        query.decoder options.confidence⟩, (transport (options.request text) state).2) := by
  simp only [Query.execute, rendered, given]

/-- The answers of an execution to the polls that a response gave its replies to:
nothing while it is pending, then the response, decoded over the parts of the
query, or its fault. -/
structure Query.Decodes (query : Query) (mode : Confidence)
    (replies : List (Option (Except String (Response Float))))
    (answers : List (Option (Except QueryError (DecodedResponse Float)))) : Prop where
  count : answers.length = replies.length
  pending : ∀ poll : Nat, replies[poll]? = some none → answers[poll]? = some none
  decoded : ∀ (poll : Nat) response, replies[poll]? = some (some (.ok response)) →
    answers[poll]? = some (some ((Decoder.mk query.parts mode).decode response))
  failed : ∀ (poll : Nat) reason, replies[poll]? = some (some (.error reason)) →
    answers[poll]? = some (some (.error (.transport reason)))

theorem Query.decodes_map_settle (query : Query) (mode : Confidence) (execution : Execution σ)
    (decoder : execution.decoder = query.decoder mode)
    (replies : List (Option (Except String (Response Float)))) :
    query.Decodes mode replies (replies.map (Option.map execution.settle)) := by
  refine ⟨List.length_map _, fun poll found => ?_, fun poll response found => ?_,
    fun poll reason found => ?_⟩
  · rw [List.getElem?_map, found]
    rfl
  · rw [List.getElem?_map, found, Option.map_some, Option.map_some, Execution.settle, decoder]
    rfl
  · rw [List.getElem?_map, found]
    rfl

/-- An execution leads the transport where its own polls and aborts would. -/
theorem course_recorded (query : Query) (mode : Confidence) (text : String)
    (inFlight : InFlight σ) (abort : σ → σ) (sent : σ) (calls : List Transport.Call)
    (events : List (Event σ)) :
    let own := inFlight.course abort sent events
    let used := (Execution.mk text (recordedPoll inFlight.poll) (recordedAbort abort)
      (query.decoder mode)).course (sent, calls) (events.map Event.recorded)
    used.state = (own.state, calls ++ Event.calls 0 events) ∧
    query.Decodes mode own.answers used.answers := by
  intro own used
  let execution : Execution (σ × List Transport.Call) :=
    ⟨text, recordedPoll inFlight.poll, recordedAbort abort, query.decoder mode⟩
  let recorded := ((Course.begin sent).withCalls calls).run (recordedPoll inFlight.poll)
    (recordedAbort abort) (recordedAbort abort) (events.map Event.recorded)
  have settled : used = recorded.map execution.settle :=
    Course.run_map (recordedPoll inFlight.poll) (recordedAbort abort) (recordedAbort abort)
      execution.settle ((Course.begin sent).withCalls calls) (events.map Event.recorded)
  have called : recorded = own.withCalls (calls ++ Event.calls 0 events) :=
    Course.run_withCalls inFlight.poll abort abort events (Course.begin sent) calls
  rw [settled, called]
  exact ⟨rfl, query.decodes_map_settle mode execution rfl own.answers⟩

/-- The text of the prepared query decides whether a transport is called at all:
if there is none, its fault is all that comes of the execution. Otherwise exactly
one request is sent for it, by the options as their steps build them, and an
execution comes of it if the request can be aborted. However it is polled and
aborted from then on, the transport is called once for every poll and once for
every abort, and ends where its own course through the same events leads it. Each
poll of the execution gives what the poll of the response gives in this course,
decoded. -/
theorem execute_recorded (query : Query) (steps : List OptionStep) (transport : Transport σ)
    (state : σ) (calls : List Transport.Call) :
    let mode := OptionStep.chosen steps
    let started := query.execute transport.recorded (Options.built steps) (state, calls)
    (∀ error, (query.prepared mode).render = .error error →
      started = (.error error, state, calls)) ∧
    ∀ text, (query.prepared mode).render = .ok text → ∃ request : Request,
      request.Follows steps text ∧
      let inFlight := (transport request state).1
      let sent := (transport request state).2
      started.2 = (sent, calls ++ [.sent request]) ∧
      (started.1 = .error .notAbortable ↔ inFlight.abort = none) ∧
      ∀ abort, inFlight.abort = some abort → ∃ execution, started.1 = .ok execution ∧
        execution.query = text ∧
        ∀ events, let own := inFlight.course abort sent events
          let used := execution.course started.2 (events.map Event.recorded)
          used.state = (own.state, calls ++ [.sent request] ++ Event.calls 0 events) ∧
          query.Decodes mode own.answers used.answers := by
  intro mode started
  have chosen : (Options.built steps).confidence = mode := by rw [Options.built_eq]
  constructor
  · intro error failure
    simp only [started, Query.execute, chosen, failure]
  · intro text rendered
    rw [← chosen] at rendered
    refine ⟨(Options.built steps).request text, Options.request_follows steps text, ?_⟩
    intro inFlight sent
    cases own : inFlight.abort with
    | none =>
      have outcome : started = _ := execute_of_not_abortable transport.recorded (state, calls)
        rendered (congrArg (Option.map recordedAbort) own)
      rw [outcome]
      exact ⟨rfl, iff_of_true rfl rfl, nofun⟩
    | some abort =>
      have outcome : started = _ := execute_of_abortable transport.recorded (state, calls) rendered
        (congrArg (Option.map recordedAbort) own)
      rw [outcome, chosen]
      refine ⟨rfl, iff_of_false nofun nofun, fun other same => ?_⟩
      obtain rfl := Option.some.inj same
      exact ⟨_, rfl, rfl, course_recorded query mode text inFlight abort sent _⟩

/-! ## A request that is fetched by a task -/

/-- A task that fetches a response. Once it is told to stop, it ends without one. -/
inductive FetchTask where
  | running (stopping : Bool)
  | ended (outcome : Except String (Response Float))

namespace FetchTask

def poll (task : FetchTask) : Option (Except String (Response Float)) × FetchTask :=
  match task with
  | .running _ => (none, task)
  | .ended outcome => (some outcome, task)

def stop : FetchTask → FetchTask
  | .running _ => .running true
  | .ended outcome => .ended outcome

/-- A response arrives, if it is still waited for. -/
def fetch (response : Response Float) : FetchTask → FetchTask
  | .running false => .ended (.ok response)
  | .running true => .ended (.error "task 1 was cancelled")
  | .ended outcome => .ended outcome

def transport : Transport FetchTask :=
  fun _ _ => (⟨poll, some stop⟩, .running false)

end FetchTask

/-- The same response arrives twice, and is decoded if the request was not aborted
before. A handle that is not taken is not there to be called. -/
theorem execute_recorded_cancelled :
    let query : Query := { Query.empty with
      parts := [Part.ofSelector ⟨"org", .all, none, none⟩] }
    let steps : List OptionStep := [.header "x-id" "1", .confidence .on, .header "x-id" "2"]
    let response : Response Float := ⟨0, []⟩
    let started := query.execute FetchTask.transport.recorded (Options.built steps)
      (.running false, [])
    ∃ request execution,
      request.query =
        "SELECT ALL FROM 'org' AS '0'.'v', confidence(ALL FROM 'org') AS '0'.'c'" ∧
      request.url = "http://localhost:8080" ∧ request.headers.get? "x-id" = some "2" ∧
      request.headers.get? "accept" = some "application/json" ∧ started.1 = .ok execution ∧
      let kept := execution.course started.2
        ([.poll, .callHandle 0, .meanwhile (FetchTask.fetch response), .poll].map Event.recorded)
      let cancelled := execution.course started.2
        ([.poll, .takeHandle, .callHandle 0, .meanwhile (FetchTask.fetch response), .poll].map
          Event.recorded)
      kept.answers[0]? = some none ∧
      kept.answers[1]? = some (some ((Decoder.mk query.parts .on).decode response)) ∧
      kept.state.2 = [.sent request, .polled, .polled] ∧
      cancelled.answers[0]? = some none ∧
      cancelled.answers[1]? = some (some (.error (.transport "task 1 was cancelled"))) ∧
      cancelled.state.2 = [.sent request, .polled, .aborted, .polled] := by
  intro query steps response started
  have rendered : (query.prepared (OptionStep.chosen steps)).render =
      .ok "SELECT ALL FROM 'org' AS '0'.'v', confidence(ALL FROM 'org') AS '0'.'c'" := by rfl
  obtain ⟨_, sent⟩ := execute_recorded query steps FetchTask.transport (.running false) []
  obtain ⟨request, follows, _, _, runs⟩ := sent _ rendered
  obtain ⟨execution, success, _, answered⟩ := runs FetchTask.stop rfl
  obtain ⟨keptState, kept⟩ := answered
    [.poll, .callHandle 0, .meanwhile (FetchTask.fetch response), .poll]
  obtain ⟨cancelledState, cancelled⟩ := answered
    [.poll, .takeHandle, .callHandle 0, .meanwhile (FetchTask.fetch response), .poll]
  have silent : ¬OptionStep.GivesAccept steps := by
    rintro ⟨name, value, member, same⟩
    simp only [steps, List.mem_cons, OptionStep.header.injEq, List.not_mem_nil, reduceCtorEq,
      or_false, false_or] at member
    rcases member with ⟨rfl, -⟩ | ⟨rfl, -⟩ <;> exact absurd same (by decide)
  exact ⟨request, execution, follows.query, follows.url, follows.added silent "x-id",
    follows.added silent "accept", success, kept.pending 0 rfl, kept.decoded 1 response rfl,
    congrArg Prod.snd keptState, cancelled.pending 0 rfl, cancelled.failed 1 _ rfl,
    congrArg Prod.snd cancelledState⟩

end MetricQuery
