import Mathlib.Data.List.TakeWhile
import SceneTokens.Proofs.Templates
import SceneTokens.Report.Basic

/-!
# The messages of faults

The message of a report ends with a place, and `Text.withoutPlace` takes off exactly that
place (`Text.withoutPlace_withPlace`): the numbers at the end are runs of digits, and what
stands before them is no digit.  It takes off whatever has the form of a place
(`Text.withoutPlace_append`) and leaves every other message as it is
(`Text.withoutPlace_of_forall_ne`).

What is left is the message of the fault, which is worded by hand.  It is nevertheless the
template of its code, filled in with the context of the fault
(`Fault.message_eq_render`); only a string that reaches the end of the source says more.
-/

namespace SceneTokens

open CodeUnit

namespace Text

/-! ## Numerals -/

theorem isDigit_digit : ∀ d < 10, isDigit (digit d) = true := by decide

theorem isDigit_of_mem_decimal {n : Nat} {u : CodeUnit} (h : u ∈ decimal n) :
    isDigit u = true := by
  fun_induction decimal n with
  | case1 n hn =>
    rw [List.mem_singleton.1 h]
    exact isDigit_digit n hn
  | case2 n hn ih =>
    rcases List.mem_append.1 h with h | h
    · exact ih h
    · rw [List.mem_singleton.1 h]
      exact isDigit_digit (n % 10) (by omega)

theorem decimal_ne_nil (n : Nat) : decimal n ≠ [] := by
  rw [decimal]
  split <;> simp

/-- The numeral of an integer that is not negative is one of a natural number. -/
theorem decimalInt_of_nonneg {n : Int} (h : 0 ≤ n) : decimalInt n = decimal n.toNat := by
  obtain ⟨m, rfl⟩ := Int.eq_ofNat_of_zero_le h
  rfl

/-- A run of units of a class ends at a unit that is not of the class. -/
theorem takeWhile_append_cons {p : CodeUnit → Bool} {run more : Text} {u : CodeUnit}
    (hrun : ∀ v ∈ run, p v = true) (hu : p u = false) :
    (run ++ u :: more).takeWhile p = run := by
  rw [List.takeWhile_append_of_pos hrun, List.takeWhile_cons_of_neg (by simp [hu]),
    List.append_nil]

/-! ## The place at the end of a message -/

theorem dropLeading?_eq_some_iff {p t kept : Text} :
    dropLeading? p t = some kept ↔ t = p ++ kept := by
  induction p generalizing t with
  | nil => simp [dropLeading?]
  | cons u p ih =>
    cases t with
    | nil => simp [dropLeading?]
    | cons v t =>
      by_cases huv : u = v
      · subst huv
        simpa [dropLeading?] using ih
      · simp [dropLeading?, huv, Ne.symm huv]

/-- What is taken off the end of a message: ` at `, digits, a colon and digits. -/
inductive IsPlace : Text → Prop
  | intro {line column : Text} (hline : line ≠ []) (hcolumn : column ≠ [])
      (hlineDigits : ∀ u ∈ line, isDigit u = true)
      (hcolumnDigits : ∀ u ∈ column, isDigit u = true) :
      IsPlace (ofString " at " ++ line ++ colon :: column)

/-- A place is taken off whole, and nothing else is. -/
theorem withoutPlace_append (kept : Text) {place : Text} (h : place.IsPlace) :
    (kept ++ place).withoutPlace = kept := by
  obtain @⟨line, column, hline, hcolumn, hlineDigits, hcolumnDigits⟩ := h
  have hreverse : (kept ++ (ofString " at " ++ line ++ colon :: column)).reverse =
      column.reverse ++ colon ::
        (line.reverse ++ ((ofString " at ").reverse ++ kept.reverse)) := by
    simp
  have hspace : (ofString " at ").reverse ++ kept.reverse =
      space :: ((ofString " at ").reverse.tail ++ kept.reverse) := rfl
  have hlast : (kept ++ (ofString " at " ++ line ++ colon :: column)).reverse.takeWhile isDigit =
      column.reverse := by
    rw [hreverse]
    exact takeWhile_append_cons (by simpa using hcolumnDigits) (by decide)
  have hfirst : (line.reverse ++ ((ofString " at ").reverse ++ kept.reverse)).takeWhile isDigit =
      line.reverse := by
    rw [hspace]
    exact takeWhile_append_cons (by simpa using hlineDigits) (by decide)
  unfold withoutPlace
  dsimp only
  rw [hlast, hreverse, List.drop_left]
  dsimp only
  rw [hfirst, List.drop_left, dropLeading?_eq_some_iff.2 rfl]
  simp [hline, hcolumn]

/-- A message that does not end with a place is left as it is. -/
theorem withoutPlace_of_forall_ne {message : Text}
    (h : ∀ kept place, place.IsPlace → message ≠ kept ++ place) :
    message.withoutPlace = message := by
  have hsplit : ∀ t : Text, t.takeWhile isDigit ++ t.drop (t.takeWhile isDigit).length = t :=
    fun t => List.prefix_iff_eq_append.1 (List.takeWhile_prefix isDigit)
  unfold withoutPlace
  dsimp only
  split
  · rfl
  rename_i mark afterMark hmark
  split
  · rfl
  rename_i hparts
  simp only [Bool.or_eq_true, List.isEmpty_iff, bne_iff_ne, ne_eq, not_or, not_not] at hparts
  obtain ⟨⟨hcolumn, hcolon⟩, hline⟩ := hparts
  split
  · rename_i kept hkept
    have hreverse : message.reverse.takeWhile isDigit ++ colon ::
        (afterMark.takeWhile isDigit ++ ((ofString " at ").reverse ++ kept)) =
          message.reverse := by
      rw [← dropLeading?_eq_some_iff.1 hkept, hsplit, ← hcolon, ← hmark, hsplit]
    have hmessage : message = kept.reverse ++ (ofString " at " ++
        (afterMark.takeWhile isDigit).reverse ++
          colon :: (message.reverse.takeWhile isDigit).reverse) := by
      have := congrArg List.reverse hreverse
      simpa using this.symm
    refine absurd hmessage (h _ _ (.intro ?_ ?_ ?_ ?_))
    · simpa using hline
    · simpa using hcolumn
    · exact fun u hu => List.mem_takeWhile_imp (List.mem_reverse.1 hu)
    · exact fun u hu => List.mem_takeWhile_imp (List.mem_reverse.1 hu)
  · rfl

theorem isPlace_suffix {l : Location} (hline : 0 ≤ l.line) (hcolumn : 0 ≤ l.column) :
    IsPlace l.suffix := by
  have hsuffix : l.suffix =
      ofString " at " ++ decimal l.line.toNat ++ colon :: decimal l.column.toNat := by
    simp [Location.suffix, Location.text, decimalInt_of_nonneg hline, decimalInt_of_nonneg hcolumn]
  rw [hsuffix]
  exact .intro (decimal_ne_nil _) (decimal_ne_nil _) (fun _ => isDigit_of_mem_decimal)
    (fun _ => isDigit_of_mem_decimal)

/-- To take a place off a message undoes putting it there. -/
theorem withoutPlace_withPlace (message : Text) {l : Location} (hline : 0 ≤ l.line)
    (hcolumn : 0 ≤ l.column) : (message.withPlace (some l)).withoutPlace = message :=
  withoutPlace_append message (isPlace_suffix hline hcolumn)

end Text

/-! ## Messages from templates -/

/-- Two of the templates have a placeholder. -/
theorem ErrorCode.template_plain {code : ErrorCode} (hspace : code ≠ .unsupportedWhitespace)
    (horder : code ≠ .snapshotOrder) : openBrace ∉ code.definition.template := by
  cases code with
  | unsupportedWhitespace => exact absurd rfl hspace
  | snapshotOrder => exact absurd rfl horder
  | unterminatedString | inconsistentIndentation | unexpectedEnd | bareCarriageReturn =>
    decide +kernel

namespace Fault

/-- What a message says beyond the template of its code. -/
def addition : Fault → Text
  | .unfinishedString _ => " while scanning string literal"
  | _ => []

/-- The wording of a fault is the template of its code, filled in with its context. -/
theorem message_eq_render (f : Fault) :
    (Template.render f.code.definition.template (f.context.getD [])).map (· ++ f.addition) =
      some f.message := by
  cases f with
  | unterminatedString | inconsistentIndentation | unexpectedEnd | bareCarriageReturn =>
    rw [Template.render_plain, Option.map_some]
    · exact congrArg some (List.append_nil _)
    · exact ErrorCode.template_plain nofun nofun
  | unfinishedString =>
    have hlonger : Text.ofString "Unexpected end of input" ++
        Text.ofString " while scanning string literal" =
          Text.ofString "Unexpected end of input while scanning string literal" := by
      decide +kernel
    rw [Template.render_plain, Option.map_some]
    · exact congrArg some hlonger
    · exact ErrorCode.template_plain nofun nofun
  | unsupportedWhitespace location symbol =>
    have htemplate : ErrorCode.unsupportedWhitespace.definition.template =
        Text.ofString "Unsupported whitespace character " ++
          openBrace :: (Text.ofString "char" ++ [closeBrace]) := by decide +kernel
    show (Template.render ErrorCode.unsupportedWhitespace.definition.template
      [("char", .text (Text.codePointName symbol))]).map (· ++ []) = _
    rw [htemplate, Template.render_singleton (by decide +kernel) (by decide +kernel)
      (by decide +kernel), Option.map_some, List.append_nil]
    rfl
  | snapshotOrder location misuse =>
    have htemplate : ErrorCode.snapshotOrder.definition.template =
        Text.ofString "Snapshot closed out of order: " ++
          openBrace :: (Text.ofString "reason" ++ [closeBrace]) := by decide +kernel
    show (Template.render ErrorCode.snapshotOrder.definition.template
      [("reason", .text misuse.reason)]).map (· ++ []) = _
    rw [htemplate, Template.render_singleton (by decide +kernel) (by decide +kernel)
      (by decide +kernel), Option.map_some, List.append_nil]
    rfl

end Fault

end SceneTokens
