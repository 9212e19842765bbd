import Mathlib.Data.List.Forall2
import SceneTokens.Proofs.Delimited
import SceneTokens.Proofs.Lines
import SceneTokens.Proofs.Renderings

/-!
# What a listing says about its tokens

A listing can be read back.  The structured listing holds everything there is to know about
the tokens.  The other two have a line for each token, and the line has the kind, the value
and one or both ends of the span, by line and column; the offsets are left out.

The names of kinds, the numerals and the quoted values all show where they end, so a line is
taken apart from the left (`Token.compactLine_inj`, `Token.line_inj`).  No value can break a
line, since a quoted text has no line feed.

Main statement: `Token.listing_decodable`.
-/

namespace SceneTokens

open CodeUnit

/-! ## Parts of a line -/

theorem TokenKind.name_injective : Function.Injective TokenKind.name := by
  intro k k'
  cases k <;> cases k' <;> decide

theorem TokenKind.delimited_name : Delimited TokenKind.name isIdentifierPart := by
  have hname : ∀ k : TokenKind, ∀ u ∈ k.name, isIdentifierPart u = true := by
    intro k
    rw [← List.all_eq_true]
    cases k <;> decide
  intro k k' r s hr hs h
  obtain ⟨heq, hrs⟩ := Text.run_append_inj (hname k) (hname k') hr hs h
  exact ⟨name_injective heq, hrs⟩

/-- The line and the column of a location, in front of a text that does not go on with a
digit. -/
theorem Location.text_append_inj {l m : Location} {r s : Text} (hr : r.Stops isDigit)
    (hs : s.Stops isDigit) (h : l.text ++ r = m.text ++ s) :
    l.line = m.line ∧ l.column = m.column ∧ r = s := by
  simp only [text, List.append_assoc, List.cons_append] at h
  obtain ⟨hline, hrest⟩ := Text.delimited_decimalInt (Text.stops_cons (by decide))
    (Text.stops_cons (by decide)) h
  injection hrest with _ hrest
  obtain ⟨hcolumn, hrs⟩ := Text.delimited_decimalInt hr hs hrest
  exact ⟨hline, hcolumn, hrs⟩

theorem Text.lineFeed_notMem_quoteUnit (u : CodeUnit) : lineFeed ∉ quoteUnit u := by
  by_cases hu : u ∈ lettered
  · have hall : ∀ u ∈ lettered, lineFeed ∉ quoteUnit u := by
      simp only [lettered, List.forall_mem_cons, List.not_mem_nil, false_imp_iff, implies_true,
        and_true]
      decide
    exact hall u hu
  · rcases quoteUnit_of_notMem hu with hquoted | hquoted <;> rw [hquoted]
    · have hmark : lineFeed ∉ ofString "\\u" := by decide
      rw [numericEscape, List.mem_append, not_or]
      exact ⟨hmark, lineFeed_notMem_hexadecimal _ _ _⟩
    · rw [List.mem_singleton]
      rintro rfl
      exact hu (by decide)

theorem Text.lineFeed_notMem_quoteBody (t : Text) : lineFeed ∉ quoteBody t := by
  fun_induction quoteBody t with
  | case1 => exact List.not_mem_nil
  | case2 u => exact lineFeed_notMem_quoteUnit u
  | case3 u v more hpair ih =>
    obtain ⟨hu, hv⟩ := ne_of_isPair (x := lineFeed) hpair (by decide)
    simp [hu.symm, hv.symm, ih]
  | case4 u v more hpair ih =>
    rw [List.mem_append, not_or]
    exact ⟨lineFeed_notMem_quoteUnit u, ih⟩

theorem Text.lineFeed_notMem_quoted (t : Text) : lineFeed ∉ quoted t := by
  have hquote : lineFeed ≠ doubleQuote := by decide
  simp [quoted, hquote, lineFeed_notMem_quoteBody]

theorem TokenKind.lineFeed_notMem_name (k : TokenKind) : lineFeed ∉ k.name := by
  cases k <;> decide

/-! ## Lines -/

namespace Token

/-- Two tokens of a kind and a value that start at the same line and column. -/
structure SameStart (t u : Token) : Prop where
  kind : t.kind = u.kind
  value : t.value = u.value
  line : t.span.start.line = u.span.start.line
  column : t.span.start.column = u.span.start.column

/-- Two such tokens that also end at the same line and column. -/
structure SameEnds (t u : Token) : Prop extends SameStart t u where
  stopLine : t.span.stop.line = u.span.stop.line
  stopColumn : t.span.stop.column = u.span.stop.column

theorem lineFeed_notMem_compactLine (t : Token) : lineFeed ∉ t.compactLine := by
  have hspace : lineFeed ∉ Text.ofString " " := by decide
  simp [compactLine, Location.lineFeed_notMem_text, TokenKind.lineFeed_notMem_name,
    Text.lineFeed_notMem_quoted, hspace]

theorem lineFeed_notMem_line (t : Token) : lineFeed ∉ t.line := by
  have hmarks : lineFeed ∉ Text.ofString "<Token: " ∧ lineFeed ∉ Text.ofString ", " ∧
      lineFeed ∉ Text.ofString " (" ∧ lineFeed ∉ Text.ofString ")>" := by decide
  simp [line, Location.lineFeed_notMem_text, TokenKind.lineFeed_notMem_name,
    Text.lineFeed_notMem_quoted, hmarks]

/-- The line of a token tells its start. -/
theorem compactLine_inj {t u : Token} (h : t.compactLine = u.compactLine) : t.SameStart u := by
  have hspace : Text.ofString " " = [space] := by decide
  simp only [compactLine, hspace, List.append_assoc, List.singleton_append] at h
  obtain ⟨hline, hcolumn, hrest⟩ := Location.text_append_inj (Text.stops_cons (by decide))
    (Text.stops_cons (by decide)) h
  injection hrest with _ hrest
  obtain ⟨hkind, hrest⟩ := TokenKind.delimited_name (Text.stops_cons (by decide))
    (Text.stops_cons (by decide)) hrest
  injection hrest with _ hrest
  exact ⟨hkind, Text.delimited_quoted.injective hrest, hline, hcolumn⟩

/-- The longer line of a token tells both ends. -/
theorem line_inj {t u : Token} (h : t.line = u.line) : t.SameEnds u := by
  have hcomma : Text.ofString ", " = [comma, space] := by decide
  have hopen : Text.ofString " (" = [space, 0x28] := by decide
  have hclose : Text.ofString ")>" = [0x29, 0x3E] := by decide
  simp only [line, hcomma, hopen, hclose, List.append_assoc, List.cons_append,
    List.nil_append] at h
  obtain ⟨hkind, hrest⟩ := TokenKind.delimited_name (Text.stops_cons (by decide))
    (Text.stops_cons (by decide)) (List.append_cancel_left h)
  injection hrest with _ hrest
  injection hrest with _ hrest
  obtain ⟨hvalue, hrest⟩ := Text.delimited_quoted (Text.stops_false _) (Text.stops_false _) hrest
  injection hrest with _ hrest
  injection hrest with _ hrest
  obtain ⟨hline, hcolumn, hrest⟩ := Location.text_append_inj (Text.stops_cons (by decide))
    (Text.stops_cons (by decide)) hrest
  injection hrest with _ hrest
  injection hrest with _ hrest
  obtain ⟨hstopLine, hstopColumn, -⟩ := Location.text_append_inj (Text.stops_cons (by decide))
    (Text.stops_cons (by decide)) hrest
  exact ⟨⟨hkind, hvalue, hline, hcolumn⟩, hstopLine, hstopColumn⟩

/-! ## Structured tokens -/

theorem document_injective : Function.Injective document := by
  intro t u h
  simp only [document, Span.document, Location.document, Document.object.injEq, List.cons.injEq,
    Prod.mk.injEq, Document.text.injEq, Document.int.injEq, true_and, and_true] at h
  obtain ⟨hkind, hvalue, hstart, hstop⟩ := h
  rcases t with ⟨kind, value, ⟨⟨line, column, offset⟩, ⟨line', column', offset'⟩⟩⟩
  rcases u with ⟨kind₂, value₂, ⟨⟨line₂, column₂, offset₂⟩, ⟨line₂', column₂', offset₂'⟩⟩⟩
  simp only at hkind hvalue hstart hstop
  rw [TokenKind.name_injective hkind, hvalue, hstart.1, hstart.2.1, hstart.2.2, hstop.1,
    hstop.2.1, hstop.2.2]

/-! ## Listings -/

section Rows

variable {row : Token → Text} (hrow : ∀ t, lineFeed ∉ row t)
include hrow

/-- The rows of some tokens are the lines of their listing. -/
theorem lines_rows {tokens : List Token} (hne : tokens ≠ []) :
    Text.lines (Text.unlines (tokens.map row)) = tokens.map row ∧
      (Text.unlines (tokens.map row)).count lineFeed = tokens.length - 1 := by
  have hlines : Text.lines (Text.unlines (tokens.map row)) = tokens.map row := by
    apply Text.lines_unlines (by simpa using hne)
    intro line hline
    obtain ⟨t, -, rfl⟩ := List.mem_map.1 hline
    exact hrow t
  have hlength := Text.length_lines (Text.unlines (tokens.map row))
  rw [hlines, List.length_map] at hlength
  exact ⟨hlines, by omega⟩

/-- Two listings of rows are equal only if they have the same rows. -/
theorem forall₂_of_unlines_eq {R : Token → Token → Prop} (hne : ∀ t, row t ≠ [])
    (hinj : ∀ t u, row t = row u → R t u) {ts us : List Token}
    (h : Text.unlines (ts.map row) = Text.unlines (us.map row)) : List.Forall₂ R ts us := by
  have hrows : ts.map row = us.map row := by
    by_cases hts : ts = []
    · by_cases hus : us = []
      · rw [hts, hus]
      · -- The listing of no tokens is one empty line, which is the row of no token.
        have hlines := (lines_rows hrow hus).1
        rw [← h, hts] at hlines
        obtain ⟨u, us, rfl⟩ := List.exists_cons_of_ne_nil hus
        injection hlines with hfirst
        exact absurd hfirst.symm (hne u)
    · by_cases hus : us = []
      · have hlines := (lines_rows hrow hts).1
        rw [h, hus] at hlines
        obtain ⟨t, ts, rfl⟩ := List.exists_cons_of_ne_nil hts
        injection hlines with hfirst
        exact absurd hfirst.symm (hne t)
      · rw [← (lines_rows hrow hts).1, h, (lines_rows hrow hus).1]
  have hall : List.Forall₂ (fun a b => a = b) (ts.map row) (us.map row) := by
    rw [hrows, List.forall₂_eq_eq_eq]
  rw [List.forall₂_map_left_iff, List.forall₂_map_right_iff] at hall
  exact hall.imp hinj

end Rows

theorem compactLine_ne_nil (t : Token) : t.compactLine ≠ [] := by
  simp [compactLine, Text.quoted]

theorem line_ne_nil (t : Token) : t.line ≠ [] := by
  simp [line, Text.quoted]

/-- A listing of tokens can be read back.

* Two lists with the same structured listing are the same.
* The other listings have one line for each token, in order, and no other lines.
* Two lists with the same listing of this kind are as long as each other, and their tokens
  agree one by one on the kind, the value and the start, and in the longer of the two listings
  also on the end, as far as the lines and the columns go. -/
theorem listing_decodable :
    Function.Injective (listing .json) ∧
    (∀ ts, ts ≠ [] →
      (Text.lines (listing .compact ts) = ts.map compactLine ∧
        (listing .compact ts).count lineFeed = ts.length - 1) ∧
      Text.lines (listing .human ts) = ts.map line ∧
        (listing .human ts).count lineFeed = ts.length - 1) ∧
    (∀ ts us, listing .compact ts = listing .compact us → List.Forall₂ SameStart ts us) ∧
    (∀ ts us, listing .human ts = listing .human us → List.Forall₂ SameEnds ts us) := by
  refine ⟨?_, ?_, ?_, ?_⟩
  · intro ts us h
    have harray := Document.render_injective h
    injection harray with hdocuments
    exact List.map_injective_iff.2 document_injective hdocuments
  · intro ts hne
    exact ⟨lines_rows lineFeed_notMem_compactLine hne, lines_rows lineFeed_notMem_line hne⟩
  · intro ts us h
    exact forall₂_of_unlines_eq lineFeed_notMem_compactLine compactLine_ne_nil
      (fun _ _ => compactLine_inj) h
  · intro ts us h
    exact forall₂_of_unlines_eq lineFeed_notMem_line line_ne_nil (fun _ _ => line_inj) h

/-- Half of a surrogate pair, a token that only differs from it in its offsets, and a token
that spells out its escape. -/
theorem listing_decodable_lone_half :
    let half : Token := ⟨.symbol, [0xD83C], ⟨⟨1, 0, 0⟩, ⟨1, 1, 1⟩⟩⟩
    let moved : Token := ⟨.symbol, [0xD83C], ⟨⟨1, 0, 7⟩, ⟨1, 1, 8⟩⟩⟩
    let spelled : Token := ⟨.symbol, "\\ud83c", ⟨⟨1, 0, 0⟩, ⟨1, 1, 1⟩⟩⟩
    [half, moved] ≠ [] ∧ Text.lines (listing .human [half, moved]) = [half.line, moved.line] ∧
      listing .human [half, half] = listing .human [half, moved] ∧
      List.Forall₂ SameEnds [half, half] [half, moved] ∧
      listing .json [half, half] ≠ listing .json [half, moved] ∧
      listing .compact [half] ≠ listing .compact [spelled] := by
  intro half moved spelled
  obtain ⟨hjson, hlines, hcompact, hhuman⟩ := listing_decodable
  have hne : [half, moved] ≠ [] := by decide
  have hsame : listing .human [half, half] = listing .human [half, moved] := by decide +kernel
  refine ⟨hne, (hlines _ hne).2.1, hsame, hhuman _ _ hsame, fun h => ?_, fun h => ?_⟩
  · exact absurd (hjson h) (by decide)
  · cases hcompact _ _ h with
    | cons hsame _ => exact absurd hsame.value (by decide +kernel)

end Token

end SceneTokens
