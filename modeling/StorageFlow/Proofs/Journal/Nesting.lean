/-
# StorageFlow.Proofs.Journal.Nesting — messages in nested contexts.

A `Routine` is a tree of logging actions: it logs messages, raises failures, enters contexts around blocks and attempts
blocks that may fail, and what it does next may depend on how a block ended.  How a routine ends and which messages it
has, each with the contexts around it, can be read off the tree.  Performing the routine does just this: it ends in
that way, leaves the contexts as they were, and tells those messages one after the other (`perform_eq`).  To tell
messages is to deliver or to save them, but what is told is the same, so nothing of a run is lost or changed by saving
its messages.  The nested steps of a script are such a tree (`runAll_tells`).
-/
import Mathlib.Logic.Function.Basic
import StorageFlow.Journal.Script
import StorageFlow.Proofs.Action.Effects

namespace StorageFlow

/-! ## Routines -/

/-- A tree of logging actions with a result. -/
inductive Routine : Type → Type 1
  | done {α : Type} (result : α) : Routine α
  | raise {α : Type} (failure : Failure) : Routine α
  | log {α : Type} (level : Level) (message : Text) (next : Routine α) : Routine α
  -- A failure of the block ends the routine; otherwise the routine goes on with the result of the block.
  | within {α β : Type} (context : Text) (block : Routine β) (next : β → Routine α) : Routine α
  -- The routine goes on however the block ends.
  | attempt {α β : Type} (block : Routine β) (next : Except Failure β → Routine α) : Routine α

/-- A message, and the contexts around it, outermost first. -/
structure Message where
  level : Level
  contexts : List Text
  text : Text

namespace Routine

/-- Performs a routine. -/
def perform {α : Type} : Routine α → Action α
  | .done result => return result
  | .raise failure => Action.fail failure
  | .log level message next => do
    Action.log level message
    next.perform
  | .within context block next => do
    let result ← block.perform.withContext context
    (next result).perform
  | .attempt block next => do
    let ended ← block.perform.attempt
    (next ended).perform

/-- How a routine ends. -/
def ending {α : Type} : Routine α → Except Failure α
  | .done result => .ok result
  | .raise failure => .error failure
  | .log _ _ next => next.ending
  | .within _ block next =>
    match block.ending with
    | .ok result => (next result).ending
    | .error failure => .error failure
  | .attempt block next => (next block.ending).ending

/-- The messages of a routine in some contexts, in the order of the program. -/
def messages {α : Type} (contexts : List Text) : Routine α → List Message
  | .done _ => []
  | .raise _ => []
  | .log level message next => ⟨level, contexts, message⟩ :: next.messages contexts
  | .within context block next =>
    block.messages (contexts ++ [context]) ++
      match block.ending with
      | .ok result => (next result).messages contexts
      | .error _ => []
  | .attempt block next => block.messages contexts ++ (next block.ending).messages contexts

end Routine

/-! ## Telling -/

namespace Message

/-- The names of contexts in front of a message, as in `[outer > inner] `; nothing outside of all contexts. -/
def place : List Text → Text
  | [] => ""
  | context :: contexts => "[" ++ context ++ Text.join (contexts.map fun other => " > " ++ other) ++ "] "

/-- A message as it is told. -/
def shown (clock : Option TimeOfDay) (m : Message) : Text := Journal.clockText clock ++ place m.contexts ++ m.text

end Message

namespace Channels

/-- Which texts are told at which level.  A message is told once, unless its level has no channel. -/
def told (c : Channels) (clock : Option TimeOfDay) (ms : List Message) : List (Level × Text) :=
  ms.filterMap fun m => (c.get m.level).map fun _ => (m.level, m.shown clock)

/-- What is written for a text that is told. -/
def deliver (c : Channels) (told : Level × Text) : List (Stream × Text) :=
  match c.get told.1 with
  | none => []
  | some channel => channel.deliver told.2

theorem told_append (c : Channels) (clock : Option TimeOfDay) (ms ns : List Message) :
    c.told clock (ms ++ ns) = c.told clock ms ++ c.told clock ns := List.filterMap_append

/-- The texts that are told at a level. -/
def textsAt (level : Level) (told : List (Level × Text)) : List Text :=
  (told.filter fun entry => entry.1 = level).map Prod.snd

/-- The texts that are written to a stream. -/
def textsOn (stream : Stream) (output : List (Stream × Text)) : List Text :=
  (output.filter fun entry => entry.1 = stream).map Prod.snd

theorem textsOn_append (stream : Stream) (output rest : List (Stream × Text)) :
    textsOn stream (output ++ rest) = textsOn stream output ++ textsOn stream rest := by
  simp only [textsOn, List.filter_append, List.map_append]

/-- Every level has a stream of its own, where texts are written as they are. -/
structure KeepApart (c : Channels) (stream : Level → Stream) : Prop where
  injective : Function.Injective stream
  verbatim : ∀ level channel, c.get level = some channel → channel = .verbatim (stream level)

end Channels

open Channels (textsAt textsOn)

namespace Journal

variable {j : Journal} {ms ns : List Message}

theorem intercalate_eq_join (separator first : Text) (parts : List Text) :
    Text.intercalate separator (first :: parts) = first ++ Text.join (parts.map fun part => separator ++ part) := by
  induction parts generalizing first with
  | nil => exact congrArg Text.mk (List.append_nil first.units).symm
  | cons part parts ih =>
      have hunits := congrArg Text.units (ih part)
      rw [Text.units_append] at hunits
      apply congrArg Text.mk
      show (first.units ++ separator.units) ++ (Text.intercalate separator (part :: parts)).units = _
      rw [hunits]
      simp [Text.join]

/-- The names of the contexts stand in front of a message. -/
theorem contextText_eq_place (contexts : List Text) : contextText contexts = Message.place contexts := by
  cases contexts with
  | nil => rfl
  | cons context contexts =>
      show "[" ++ Text.intercalate " > " (context :: contexts) ++ "] " = _
      rw [intercalate_eq_join, Message.place]
      apply congrArg Text.mk
      simp only [Text.units_append, List.append_assoc]

/-- The journal after some messages were told. -/
def telling (j : Journal) (ms : List Message) : Journal :=
  { j with
    saved := if j.saves then j.saved ++ j.channels.told j.clock ms else j.saved
    output := if j.saves then j.output else j.output ++ (j.channels.told j.clock ms).flatMap j.channels.deliver }

theorem telling_nil (j : Journal) : j.telling [] = j := by
  simp [telling, Channels.told]

theorem telling_append (j : Journal) (ms ns : List Message) : j.telling (ms ++ ns) = (j.telling ms).telling ns := by
  cases hsaves : j.saves <;> simp [telling, hsaves, Channels.told_append]

theorem log_eq_telling (j : Journal) (level : Level) (message : Text) :
    j.log level message = j.telling [⟨level, j.contexts, message⟩] := by
  have hformatted : j.formatted message = Message.shown j.clock ⟨level, j.contexts, message⟩ := by
    rw [formatted, contextText_eq_place, Message.shown]
  unfold log telling
  split
  · next hchannel => simp [Channels.told, hchannel]
  · next channel hchannel =>
    rw [hformatted]
    split
    · next hsaves => simp [Channels.told, hchannel, hsaves]
    · next hsaves => simp [Channels.told, Channels.deliver, hchannel, hsaves]

/-- What was told inside a context stays when the context is left. -/
theorem leave_telling_enter (j : Journal) (context : Text) (ms : List Message) :
    ((j.enter context).telling ms).leave = j.telling ms := by
  have hleave : ((j.enter context).telling ms).leave =
      { j.telling ms with contexts := (j.enter context).leave.contexts } := rfl
  rw [hleave, leave_enter]
  rfl

/-- The saved messages of a level are the texts that were saved for it. -/
theorem savedAt_eq_textsAt (j : Journal) (level : Level) : j.savedAt level = textsAt level j.saved := by
  rw [savedAt, textsAt, ← List.filterMap_eq_filter, List.map_filterMap]
  congr 1
  funext entry
  obtain ⟨other, text⟩ := entry
  by_cases hlevel : other = level <;> simp [Option.guard, hlevel]

end Journal

namespace Channels

variable {c : Channels} {clock : Option TimeOfDay} {ms : List Message} {entry : Level × Text}

/-- Only levels with a channel are told. -/
theorem exists_channel_of_mem_told (h : entry ∈ c.told clock ms) : ∃ channel, c.get entry.1 = some channel := by
  obtain ⟨m, -, hm⟩ := List.mem_filterMap.mp h
  obtain ⟨channel, hchannel, rfl⟩ := Option.map_eq_some_iff.mp hm
  exact ⟨channel, hchannel⟩

theorem textsAt_told_eq_nil {level : Level} (h : c.get level = none) : textsAt level (c.told clock ms) = [] := by
  rw [textsAt, List.map_eq_nil_iff, List.filter_eq_nil_iff]
  intro entry hentry hlevel
  obtain ⟨channel, hchannel⟩ := exists_channel_of_mem_told hentry
  rw [of_decide_eq_true hlevel, h] at hchannel
  cases hchannel

/-- If the levels keep apart, the texts of a level are those on its stream. -/
theorem KeepApart.textsOn_eq {stream : Level → Stream} (h : c.KeepApart stream) (level : Level)
    (entries : List (Level × Text)) (hentries : ∀ entry ∈ entries, ∃ channel, c.get entry.1 = some channel) :
    textsOn (stream level) (entries.flatMap c.deliver) = textsAt level entries := by
  induction entries with
  | nil => rfl
  | cons entry entries ih =>
      obtain ⟨channel, hchannel⟩ := hentries entry List.mem_cons_self
      have hdeliver : c.deliver entry = [(stream entry.1, entry.2)] := by
        rw [deliver, hchannel, h.verbatim _ _ hchannel]
        rfl
      have hrest := ih fun other hother => hentries other (List.mem_cons_of_mem _ hother)
      rw [List.flatMap_cons, hdeliver, textsOn_append, hrest]
      by_cases hlevel : entry.1 = level <;> simp [textsOn, textsAt, h.injective.eq_iff, hlevel]

end Channels

/-! ## Performing -/

/-- A context passes on how its block ends, and what was told inside stays. -/
theorem Action.withContext_eq {α : Type} {x : Action α} {j : Journal} {sink : Diagnostic.Sink} {context : Text}
    {ms : List Message} {result : Except Failure α}
    (h : x ⟨j.enter context, sink⟩ = (result, ⟨(j.enter context).telling ms, sink⟩)) :
    x.withContext context ⟨j, sink⟩ = (result, ⟨j.telling ms, sink⟩) := by
  rw [withContext, h, ← j.leave_telling_enter context]

namespace Routine

/-- **A routine tells its messages**, ends as it should, and leaves the contexts as they were. -/
theorem perform_eq {α : Type} (r : Routine α) (j : Journal) (sink : Diagnostic.Sink) :
    r.perform ⟨j, sink⟩ = (r.ending, ⟨j.telling (r.messages j.contexts), sink⟩) := by
  induction r generalizing j with
  | done result =>
      rw [messages, j.telling_nil]
      rfl
  | raise failure =>
      rw [messages, j.telling_nil]
      rfl
  | log level message next ih =>
      have hlog : Action.log level message ⟨j, sink⟩ = (.ok (), ⟨j.log level message, sink⟩) := rfl
      rw [perform, Action.bind_of_ok hlog, ih, Journal.contexts_log, Journal.log_eq_telling, ← Journal.telling_append]
      rfl
  | within context block next ihblock ihnext =>
      have hblock := Action.withContext_eq (ihblock (j.enter context))
      rw [perform, ending, messages]
      cases hending : block.ending with
      | ok result =>
          rw [hending] at hblock
          rw [Action.bind_of_ok hblock, ihnext, j.telling_append]
          rfl
      | error failure =>
          rw [hending] at hblock
          rw [Action.bind_of_error hblock, List.append_nil]
          rfl
  | attempt block next ihblock ihnext =>
      have hblock : block.perform.attempt ⟨j, sink⟩ =
          (.ok block.ending, ⟨j.telling (block.messages j.contexts), sink⟩) := by
        rw [Action.attempt, ihblock]
      rw [perform, Action.bind_of_ok hblock, ihnext, messages, j.telling_append]
      rfl

/-- **Nested contexts, and two ways of telling.**  A block in a context ends as it does outside of all contexts, with a
result or with a failure, and leaves the contexts as they were.  A routine is performed by two loggers that differ in
one thing: one delivers its messages, the other saves them.  Each message whose level has a channel is delivered once,
in the order of the program, with the contexts around it.  The logger that saves delivers nothing, and has for each
level the texts that the other one has told at this level, none for a level without a channel; if every level has a
stream of its own, this is what the other one has written there. -/
theorem perform_tells {α : Type} (r : Routine α) (channels : Channels) (clock : Option TimeOfDay)
    (contexts : List Text) (sink : Diagnostic.Sink) :
    let told := channels.told clock (r.messages contexts)
    let logger (saves : Bool) : Journal := { Journal.start channels saves clock with contexts }
    (∀ context (j : Journal), ∃ after,
      r.perform.withContext context ⟨j, sink⟩ = (r.ending, ⟨after, sink⟩) ∧ after.contexts = j.contexts) ∧
    ∃ plain saving : Journal,
      r.perform ⟨logger false, sink⟩ = (r.ending, ⟨plain, sink⟩) ∧ plain.contexts = contexts ∧
      r.perform ⟨logger true, sink⟩ = (r.ending, ⟨saving, sink⟩) ∧ saving.contexts = contexts ∧
      plain.output = told.flatMap channels.deliver ∧
      saving.output = [] ∧
      saving.savedMessages =
        .ok ⟨textsAt .debug told, textsAt .info told, textsAt .warn told, textsAt .error told⟩ ∧
      (∀ level, channels.get level = none → textsAt level told = []) ∧
      ∀ stream, channels.KeepApart stream → ∀ level, textsOn (stream level) plain.output = saving.savedAt level := by
  intro told logger
  refine ⟨fun context j => ⟨_, Action.withContext_eq (r.perform_eq (j.enter context) sink), rfl⟩,
    (logger false).telling (r.messages contexts), (logger true).telling (r.messages contexts),
    r.perform_eq (logger false) sink, rfl, r.perform_eq (logger true) sink, rfl, ?_, rfl, ?_, ?_, ?_⟩
  · exact List.nil_append _
  · simp only [Journal.savedMessages, Journal.savedAt_eq_textsAt]
    rfl
  · exact fun level hlevel => Channels.textsAt_told_eq_nil hlevel
  · intro stream hstream level
    rw [Journal.savedAt_eq_textsAt]
    exact hstream.textsOn_eq level _ fun entry => Channels.exists_channel_of_mem_told

-- A failure leaves two contexts at once, and the messages that follow have their own contexts only.
example :
    let inner : Routine Unit := .log .warn "lost" (.raise (.raised "stop"))
    let outer : Routine Unit := .within "a" (.within "b" inner .done) .done
    let r : Routine Unit := .attempt outer fun _ => .log .info "found" (.within "c" (.log .warn "end" (.done ())) .done)
    let channels : Channels := ⟨none, some (.line .out), some (.verbatim .err), none⟩
    (r.perform ⟨.start channels false none, .empty⟩).2.journal.output =
      ([(.err, "[a > b] lost"), (.out, "found\n"), (.err, "[c] end")] : List (Stream × Text)) := by
  decide +kernel

end Routine

/-! ## Scripts -/

namespace Journal

mutual

/-- A step, and what follows it unless it raises an error.  An error inside a context ends there. -/
def Step.routine (next : Routine Unit) : Step → Routine Unit
  | .log level message => .log level message next
  | .saved => next
  | .raise message => .raise (.raised message)
  | .within context steps => .attempt (.within context (routineOf steps) .done) fun _ => next

/-- The steps of a script as a routine. -/
def routineOf : List Step → Routine Unit
  | [] => .done ()
  | step :: steps => step.routine (routineOf steps)

end

/-- How steps end, by the error that ended them. -/
def endingOf : Option Failure → Except Failure Unit
  | none => .ok ()
  | some failure => .error failure

mutual

theorem Step.perform_routine (step : Step) (next : Routine Unit) (j : Journal) (sink : Diagnostic.Sink) :
    (step.routine next).perform ⟨j, sink⟩ =
      match step.run j with
      | (.ok _, after) => next.perform ⟨after, sink⟩
      | (.error failure, after) => (.error failure, ⟨after, sink⟩) := by
  cases step with
  | log level message => rfl
  | saved => rfl
  | raise message => rfl
  | within context steps =>
      have hblock : (Routine.within context (routineOf steps) .done).perform.attempt ⟨j, sink⟩ =
          (.ok (endingOf (runAll (j.enter context) steps).1.2), ⟨(runAll (j.enter context) steps).2.leave, sink⟩) := by
        have hdone : (Routine.within context (routineOf steps) .done).perform =
            (routineOf steps).perform.withContext context := bind_pure _
        rw [Action.attempt, hdone, Action.withContext, perform_routineOf steps (j.enter context) sink]
      rw [Step.routine, Routine.perform, Action.bind_of_ok hblock]
      rfl

theorem perform_routineOf (steps : List Step) (j : Journal) (sink : Diagnostic.Sink) :
    (routineOf steps).perform ⟨j, sink⟩ = (endingOf (runAll j steps).1.2, ⟨(runAll j steps).2, sink⟩) := by
  cases steps with
  | nil => rfl
  | cons step steps =>
      rw [routineOf, step.perform_routine, runAll]
      rcases step.run j with ⟨answer | failure, after⟩
      · rfl
      · exact perform_routineOf steps after sink

end

/-- **A script tells the messages of its routine**, and ends as it does. -/
theorem runAll_tells (steps : List Step) (j : Journal) :
    (runAll j steps).2 = j.telling ((routineOf steps).messages j.contexts) ∧
      endingOf (runAll j steps).1.2 = (routineOf steps).ending := by
  have hperform := ((routineOf steps).perform_eq j .empty).symm.trans (perform_routineOf steps j .empty)
  obtain ⟨hending, htrail⟩ := Prod.mk.inj hperform
  exact ⟨(congrArg Trail.journal htrail).symm, hending.symm⟩

end Journal

end StorageFlow
