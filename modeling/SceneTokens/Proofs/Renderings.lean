import SceneTokens.Proofs.Diagnosis
import SceneTokens.Report.Problem

/-!
# Renderings of faults

The report of a fault is shown in three ways: over several lines, with the lines of the source
around the fault; on one line; and as a document.  Each is said here in terms of the fault
itself, its code, message, place and span (`Report.human_enrich`, `Report.compact_enrich`,
`Report.json_enrich`).

Nothing in a report has a line feed of its own, so the rendering on one line stays on one, and
the first lines and the last one of the rendering over several lines are lines.
-/

namespace SceneTokens

open CodeUnit

/-! ## Texts on one line -/

namespace Text

theorem lineFeed_notMem_decimal (n : Nat) : lineFeed ∉ decimal n := by
  intro h
  exact absurd (isDigit_of_mem_decimal h) (by decide)

theorem lineFeed_notMem_decimalInt (n : Int) : lineFeed ∉ decimalInt n := by
  have hsign : lineFeed ≠ hyphen := by decide
  match n with
  | .ofNat n => exact lineFeed_notMem_decimal n
  | .negSucc n => simp [decimalInt, lineFeed_notMem_decimal, hsign]

theorem hexDigit_ne_lineFeed (letters : LetterCase) {d : Nat} (h : d < 16) :
    hexDigit letters d ≠ lineFeed := by
  revert d
  cases letters <;> decide

theorem lineFeed_notMem_hexadecimal (letters : LetterCase) (width n : Nat) :
    lineFeed ∉ hexadecimal letters width n := by
  fun_induction hexadecimal letters width n with
  | case1 width n hn =>
    have hdigit := hexDigit_ne_lineFeed letters hn
    have hzero : lineFeed ≠ zero := by decide
    simp [hdigit.symm, hzero]
  | case2 width n hn ih =>
    have hdigit := hexDigit_ne_lineFeed letters (Nat.mod_lt n (by decide : 16 > 0))
    simp [ih, hdigit.symm]

end Text

theorem Location.lineFeed_notMem_text (l : Location) : lineFeed ∉ l.text := by
  have hcolon : lineFeed ≠ colon := by decide
  simp [text, Text.lineFeed_notMem_decimalInt, hcolon]

theorem ErrorCode.lineFeed_notMem_id (code : ErrorCode) : lineFeed ∉ code.id := by
  cases code <;> decide

theorem Text.lineFeed_notMem_codePointName (t : Text) : lineFeed ∉ codePointName t := by
  have hname : lineFeed ∉ ofString "U+" := by decide
  rw [codePointName, List.mem_append, not_or]
  exact ⟨hname, lineFeed_notMem_hexadecimal _ _ _⟩

theorem Fault.lineFeed_notMem_message (f : Fault) : lineFeed ∉ f.message := by
  cases f with
  | unterminatedString | inconsistentIndentation | unexpectedEnd | unfinishedString
  | bareCarriageReturn =>
    rw [message]
    decide +kernel
  | unsupportedWhitespace location symbol =>
    have hwords : lineFeed ∉ Text.ofString "Unsupported whitespace character " := by
      decide +kernel
    rw [message, List.mem_append, not_or]
    exact ⟨hwords, Text.lineFeed_notMem_codePointName symbol⟩
  | snapshotOrder location misuse =>
    rw [message]
    cases misuse <;> decide +kernel

/-! ## Reports -/

/-- The span where a fault is shown: its own, or the empty one at its location. -/
def Fault.shownSpan (f : Fault) : Span := f.span.getD (Span.point f.location)

theorem Fault.Exact.shownSpan {f : Fault} {source : Text} (h : f.Exact source) :
    f.shownSpan.Exact source := by
  unfold Fault.shownSpan
  cases hspan : f.span with
  | some span => exact (h.span span hspan).1
  | none => exact ⟨h.location, h.location, Int.le_refl _⟩

namespace Report

variable (f : Fault) (source : Text) (around : Int)

theorem span_enrich : ((ofFault f).enrich source around).span = some f.shownSpan := by
  unfold enrich Fault.shownSpan ofFault
  cases f.span with
  | some span => rfl
  | none => rfl

theorem place_enrich : ((ofFault f).enrich source around).place = some f.location := by
  unfold Enriched.place enrich
  rw [location_ofFault]
  rfl

/-- The lines around a fault are those around its span. -/
theorem snippet_enrich {source : Text} (hne : source ≠ []) {x : Snippet}
    (hextract : Snippet.extract source f.shownSpan around = .ok x) :
    ((ofFault f).enrich source around).snippet = some x := by
  have hspan := span_enrich f source around
  unfold enrich at hspan ⊢
  dsimp only at hspan ⊢
  rw [if_neg (by simpa using hne), hspan, Option.bind_some, hextract]
  rfl

end Report

/-! ## Renderings -/

namespace Fault

variable (f : Fault)

/-- The first line of a fault over several lines. -/
def headline : Text := Text.ofString "error[" ++ f.code.id ++ Text.ofString "]: " ++ f.message

/-- The line that names the place of a fault. -/
def arrow : Text := Text.ofString "  --> " ++ f.location.text

/-- The line with the advice for a fault. -/
def help : Text := Text.ofString "   = help: " ++ f.code.definition.resolution

/-- The only line of a fault on one line. -/
def summary : Text :=
  Text.ofString "[" ++ f.code.id ++ Text.ofString "] " ++ f.message ++ Text.ofString " at " ++
    f.location.text

/-- A fault as a document.  The lines of its range are counted from zero. -/
def document : Document :=
  let place : Location → Document := fun l =>
    .object [(Text.ofString "line", .int (l.line - 1)), (Text.ofString "character", .int l.column)]
  .object
    [(Text.ofString "range", .object [(Text.ofString "start", place f.shownSpan.start),
        (Text.ofString "end", place f.shownSpan.stop)]),
      (Text.ofString "severity", .int 1),
      (Text.ofString "code", .text f.code.id),
      (Text.ofString "source", .text (Text.ofString "scenelex")),
      (Text.ofString "message", .text f.message),
      (Text.ofString "suggestions", .array [.text f.code.definition.resolution])]

theorem lineFeed_notMem_headline : lineFeed ∉ f.headline := by
  have hmarks : lineFeed ∉ Text.ofString "error[" ∧ lineFeed ∉ Text.ofString "]: " := by
    decide
  simp [headline, hmarks, f.code.lineFeed_notMem_id, f.lineFeed_notMem_message]

theorem lineFeed_notMem_arrow : lineFeed ∉ f.arrow := by
  have hmark : lineFeed ∉ Text.ofString "  --> " := by decide
  simp [arrow, hmark, f.location.lineFeed_notMem_text]

theorem lineFeed_notMem_help : lineFeed ∉ f.help := by
  have hmark : lineFeed ∉ Text.ofString "   = help: " := by decide
  have hresolution : lineFeed ∉ f.code.definition.resolution := by
    cases f.code <;> decide +kernel
  simp [help, hmark, hresolution]

theorem lineFeed_notMem_summary : lineFeed ∉ f.summary := by
  have hmarks : lineFeed ∉ Text.ofString "[" ∧ lineFeed ∉ Text.ofString "] " ∧
      lineFeed ∉ Text.ofString " at " := by decide
  simp [summary, hmarks, f.code.lineFeed_notMem_id, f.lineFeed_notMem_message,
    f.location.lineFeed_notMem_text]

end Fault

namespace Report

variable {f : Fault} {source : Text} (h : f.Exact source)
include h

/-- The rendering over several lines has the rows of the snippet in it. -/
theorem human_enrich {around : Int} {x : Snippet} {rows : List Text}
    (hsnippet : ((ofFault f).enrich source around).snippet = some x) (hlines : x.lines ≠ [])
    (hrows : x.rows = .ok rows) :
    ((ofFault f).enrich source around).human =
      .ok (Text.unlines ([f.headline, f.arrow] ++ rows ++ [f.help])) := by
  have hplace := place_enrich f source around
  unfold Enriched.human
  rw [hsnippet, hplace]
  dsimp only
  rw [if_neg (by simpa using hlines), hrows]
  unfold enrich Fault.headline Fault.arrow Fault.help
  rw [bareMessage_ofFault h, code_ofFault]
  rfl

theorem compact_enrich (around : Int) :
    ((ofFault f).enrich source around).compact = f.summary := by
  have hparts : ((ofFault f).enrich source around).compact = [space].intercalate
      [Text.ofString "[" ++ f.code.id ++ Text.ofString "]", f.message,
        Text.ofString "at " ++ f.location.text] := by
    rw [Enriched.compact, place_enrich, ← bareMessage_ofFault h, ← code_ofFault f]
    rfl
  have hclose : Text.ofString "] " = Text.ofString "]" ++ [space] := by decide
  have hat : Text.ofString " at " = space :: Text.ofString "at " := by decide
  rw [hparts, Fault.summary, hclose, hat]
  simp [List.intercalate]

theorem json_enrich (around : Int) :
    ((ofFault f).enrich source around).json = f.document.render := by
  have hspan := span_enrich f source around
  unfold Enriched.json Enriched.diagnostic
  rw [hspan]
  unfold enrich Fault.document
  rw [bareMessage_ofFault h, code_ofFault]
  rfl

end Report

/-! ## Sources with a fault -/

theorem source_ne_nil_of_fault {source : Text} {fault : Fault}
    (h : (Lexer.ofSource source).scan.fault = some fault) : source ≠ [] := by
  rintro rfl
  have hnone : (Lexer.ofSource []).scan.fault = none := by decide +kernel
  rw [hnone] at h
  cases h

end SceneTokens
