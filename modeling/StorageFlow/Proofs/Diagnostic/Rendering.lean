/-
# StorageFlow.Proofs.Diagnostic.Rendering — what a diagnostic looks like, given one text.

A diagnostic is shown with the texts of all source files at hand, but if all its places are in one file, then only
the text of this file counts (`format_eq_shown`).  What is shown is determined by that text alone: lines and columns
and the source line if it is known, and offsets if it is not.  The source line is one that the text has
(`exists_lineAt?`).
-/
import StorageFlow.Diagnostic.Report
import StorageFlow.Outcome

namespace StorageFlow

/-! ## Lines -/

namespace Text

theorem isPrefix_before (text : List UInt16) (offset : Int) : before text offset <+: text := by
  unfold before
  split
  · exact List.take_prefix _ _
  · exact List.take_prefix _ _

/-- Every offset belongs to a line of the text. -/
theorem exists_lineAt? (content : Text) (offset : Number) :
    ∃ line ∈ content.lines, content.lineAt? offset = some line := by
  have hlines : content.lines.length = content.units.count lineFeed + 1 := by
    rw [lines, splitAt, List.length_map, length_split]
  have hline : (positionOf content offset).line =
      (before content.units offset.truncate).count lineFeed + 1 := length_split _ _
  have hcount := (isPrefix_before content.units offset.truncate).sublist.count_le lineFeed
  have hlt : (positionOf content offset).line - 1 < content.lines.length := by omega
  exact ⟨_, List.getElem_mem hlt, List.getElem?_eq_getElem hlt⟩

end Text

/-! ## Places -/

/-- A place for the reader, given the text of its file, if that is known. -/
def Location.shown (l : Location) : Option Text → Text
  | none => l.fileText ++ ":" ++ l.start.text ++ "-" ++ l.stop.text
  | some content =>
    l.fileText ++ ":" ++ Text.ofNat (Text.positionOf content l.start).line ++ ":" ++
      Text.ofNat (Text.positionOf content l.start).column

theorem Location.text_eq_shown {l : Location} {path : Text} (h : l.file = some path) (contents : Contents) :
    l.text contents = l.shown (contents.get? path) := by
  rw [text, content?, h]
  show (match contents.get? path with | none => _ | some content => _) = _
  cases contents.get? path <;> rfl

/-! ## Diagnostics -/

namespace Diagnostic

/-- All places of a diagnostic are in one file. -/
structure InFile (d : Diagnostic) (path : Text) : Prop where
  location : d.location.file = some path
  secondaryLocations : ∀ s ∈ d.secondaryLocations, s.location.file = some path

/-- The source line that a diagnostic points to. -/
def quote (d : Diagnostic) : Option Text → List Text
  | none => []
  | some content => ["    " ++ Text.trimEnd ((content.lineAt? d.location.start).getD "")]

/-- A hard error for the reader, given the text of its file, if that is known. -/
def shown (d : Diagnostic) (colorize : Bool) (content : Option Text) : Text :=
  Text.intercalate "\n" <|
    (d.location.shown content ++ ": " ++ Text.emphasizeIf colorize .red "Error" ++ ": " ++ d.message) ::
      d.quote content ++ d.secondaryLocations.map fun s =>
        s.location.shown content ++ ": " ++ Text.emphasizeIf colorize .cyan "Note" ++ ": " ++ s.message

theorem textOfNumber_of_isError {d : Diagnostic} (h : d.isError = true) (colorize : Bool) :
    Severity.textOfNumber d.severity colorize = .ok (Text.emphasizeIf colorize .red "Error") := by
  have hseverity : d.severity = Severity.error.number := beq_iff_eq.1 h
  rw [Severity.textOfNumber, hseverity, Severity.ofNumber?_number]
  rfl

/-- **Only the text of its own file counts for a diagnostic.** -/
theorem format_eq_shown {d : Diagnostic} {path : Text} (herror : d.isError = true) (hfile : d.InFile path)
    (contents : Contents) (colorize : Bool) :
    d.format contents colorize = .ok (d.shown colorize (contents.get? path)) := by
  have hquote : d.excerpt contents = d.quote (contents.get? path) := by
    rw [excerpt, Location.content?, hfile.location]
    show (match contents.get? path with | none => _ | some content => _) = _
    cases contents.get? path <;> rfl
  have hnotes : d.secondaryLocations.map (note contents colorize) = d.secondaryLocations.map fun s =>
      s.location.shown (contents.get? path) ++ ": " ++ Text.emphasizeIf colorize .cyan "Note" ++ ": " ++ s.message :=
    List.map_congr_left fun s hs => by rw [note, Location.text_eq_shown (hfile.secondaryLocations s hs)]
  rw [format, textOfNumber_of_isError herror, hquote, hnotes, Location.text_eq_shown hfile.location]
  rfl

end Diagnostic

/-- Hard errors can always be shown. -/
theorem Verdict.exists_formatAll {ds : List Diagnostic} (h : ∀ d ∈ ds, d.isError = true) (contents : Contents)
    (colorize : Bool) : ∃ texts, formatAll contents colorize ds = .ok texts := by
  induction ds with
  | nil => exact ⟨[], rfl⟩
  | cons d ds ih =>
      rw [List.forall_mem_cons] at h
      obtain ⟨texts, htexts⟩ := ih h.2
      rw [formatAll, Diagnostic.format, Diagnostic.textOfNumber_of_isError h.1, htexts]
      exact ⟨_, rfl⟩

/-- Hard errors are shown one by one, each with the text of its file. -/
theorem Verdict.formatAll_eq {α : Type} {parts : List (α × Diagnostic)} {path : α → Text}
    (h : ∀ part ∈ parts, part.2.isError = true ∧ part.2.InFile (path part.1)) (contents : Contents)
    (colorize : Bool) :
    formatAll contents colorize (parts.map Prod.snd) =
      .ok (parts.map fun part => part.2.shown colorize (contents.get? (path part.1))) := by
  induction parts with
  | nil => rfl
  | cons part parts ih =>
      rw [List.forall_mem_cons] at h
      rw [List.map_cons, formatAll, Diagnostic.format_eq_shown h.1.1 h.1.2, ih h.2]
      rfl

end StorageFlow
