/-
# StorageFlow.Journal — messages of a run.

A message has a level.  Where messages of a level go is decided by the channel of that level; without a
channel they are dropped.  A message starts with the time, if the journal has a clock, and with the names of
the contexts it was written in, outermost first.  A journal that saves its messages delivers nothing and
keeps the messages by level instead.

Main statement: `leave_enter` — leaving a context that was just entered restores the journal.
-/
import StorageFlow.Failure

namespace StorageFlow

/-- Where a program writes. -/
inductive Stream where
  | out
  | err
  | custom (name : Text)
  deriving DecidableEq, Repr, Inhabited

/-- The name of a stream. -/
def Stream.name : Stream → Text
  | out => "out"
  | err => "err"
  | custom name => name

/-- How important a message is. -/
inductive Level where
  | debug
  | info
  | warn
  | error
  deriving DecidableEq, Repr, Inhabited

/-- The name of a level. -/
def Level.name : Level → Text
  | debug => "debug"
  | info => "info"
  | warn => "warn"
  | error => "error"

/-- The way messages are delivered. -/
inductive Channel where
  | line (stream : Stream)
  | traced
  | verbatim (stream : Stream)
  deriving DecidableEq, Repr

/-- What a channel writes for a message. -/
def Channel.deliver (message : Text) : Channel → List (Stream × Text)
  | line stream => [(stream, message ++ "\n")]
  | traced => [(.out, message ++ "\n"), (.err, "Trace\n")]
  | verbatim stream => [(stream, message)]

/-- A time of day. -/
structure TimeOfDay where
  hours : Nat
  minutes : Nat
  seconds : Nat
  milliseconds : Nat
  deriving DecidableEq, Repr, Inhabited

/-- A number with zeros in front, at least `width` digits long. -/
def paddedNumber (width n : Nat) : Text :=
  let digits := Nat.toDigits 10 n
  Text.ofChars (List.replicate (width - digits.length) '0' ++ digits)

/-- A time of day between brackets. -/
def TimeOfDay.text (t : TimeOfDay) : Text :=
  "[" ++ paddedNumber 2 t.hours ++ ":" ++ paddedNumber 2 t.minutes ++ ":" ++ paddedNumber 2 t.seconds ++ "." ++
    paddedNumber 3 t.milliseconds ++ "]"

/-- The channels of all levels. -/
structure Channels where
  debug : Option Channel
  info : Option Channel
  warn : Option Channel
  error : Option Channel
  deriving DecidableEq, Repr

namespace Channels

/-- The channel of a level. -/
def get (c : Channels) : Level → Option Channel
  | .debug => c.debug
  | .info => c.info
  | .warn => c.warn
  | .error => c.error

/-- The channels after that of one level was replaced. -/
def set (c : Channels) (level : Level) (channel : Option Channel) : Channels :=
  match level with
  | .debug => { c with debug := channel }
  | .info => { c with info := channel }
  | .warn => { c with warn := channel }
  | .error => { c with error := channel }

/-- Information goes to the output, warnings and errors to the error stream. -/
def ordinary : Channels := ⟨none, some (.line .out), some (.line .err), some (.line .err)⟩

/-- Nothing is delivered. -/
def silent : Channels := ⟨none, none, none, none⟩

/-- As in ordinary use, and details go to the output. -/
def detailed : Channels := { ordinary with debug := some (.line .out) }

/-- Everything goes to the output, with traces. -/
def traced : Channels := ⟨some .traced, some .traced, some .traced, some .traced⟩

end Channels

/-- The messages of a run, and how they are treated. -/
structure Journal where
  channels : Channels
  saves : Bool
  clock : Option TimeOfDay
  -- The names of the contexts that have been entered, outermost first.
  contexts : List Text
  -- The saved messages, oldest first.
  saved : List (Level × Text)
  output : List (Stream × Text)
  deriving DecidableEq

namespace Journal

/-- A journal without messages. -/
def start (channels : Channels) (saves : Bool) (clock : Option TimeOfDay) : Journal :=
  ⟨channels, saves, clock, [], [], []⟩

/-! ## Contexts -/

/-- Enters a context. -/
def enter (j : Journal) (context : Text) : Journal := { j with contexts := j.contexts ++ [context] }

/-- Leaves the innermost context. -/
def leave (j : Journal) : Journal := { j with contexts := j.contexts.dropLast }

/-- Leaving a context that was just entered restores the journal. -/
theorem leave_enter (j : Journal) (context : Text) : (j.enter context).leave = j := by
  simp [enter, leave]

/-- The names of the contexts in front of a message. -/
def contextText (contexts : List Text) : Text :=
  if contexts.isEmpty then "" else "[" ++ Text.intercalate " > " contexts ++ "] "

/-- The time in front of a message. -/
def clockText : Option TimeOfDay → Text
  | none => ""
  | some time => time.text ++ " "

/-- A message as it is delivered or saved. -/
def formatted (j : Journal) (message : Text) : Text :=
  clockText j.clock ++ contextText j.contexts ++ message

/-! ## Messages -/

/-- Writes to a stream, whatever the channels are. -/
def write (j : Journal) (stream : Stream) (text : Text) : Journal :=
  { j with output := j.output ++ [(stream, text)] }

/-- Logs a message. -/
def log (j : Journal) (level : Level) (message : Text) : Journal :=
  match j.channels.get level with
  | none => j
  | some channel =>
    -- A message of a level without a channel is not even saved.
    if j.saves then { j with saved := j.saved ++ [(level, j.formatted message)] }
    else { j with output := j.output ++ channel.deliver (j.formatted message) }

/-- The saved messages of a level. -/
def savedAt (j : Journal) (level : Level) : List Text :=
  j.saved.filterMap fun (l, message) => if l = level then some message else none

/-- The saved messages of all levels. -/
structure Saved where
  debug : List Text
  info : List Text
  warn : List Text
  error : List Text
  deriving DecidableEq, Repr

/-- The saved messages; asking for them is a mistake if none are saved. -/
def savedMessages (j : Journal) : Except Failure Saved :=
  if j.saves then .ok ⟨j.savedAt .debug, j.savedAt .info, j.savedAt .warn, j.savedAt .error⟩
  else .error (.mistake .messagesNotSaved)

/-- Saved messages as a document. -/
def Saved.toJson (s : Saved) : Json :=
  .object [("debug", Json.ofTexts s.debug), ("info", Json.ofTexts s.info), ("warn", Json.ofTexts s.warn),
    ("error", Json.ofTexts s.error)]

@[simp] theorem contexts_log (j : Journal) (level : Level) (message : Text) :
    (j.log level message).contexts = j.contexts := by
  unfold log
  split
  · rfl
  · split <;> rfl

end Journal

end StorageFlow
