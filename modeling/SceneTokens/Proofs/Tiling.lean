import SceneTokens.Lexer.Tokenize
import SceneTokens.Proofs.Step

/-!
# Tokens tile their source

Nothing of a source is lost, read twice or read out of order.  The tokens of a source
and the pieces passed over between them, put one behind the other, are the source
again; the value of a token is the text that it covers, apart from the markers of
closed blocks, which cover nothing; and what is passed over is spaces and tabs.  One
piece may be more than that: whitespace on a line of its own that runs into the end
of the source.

`Tiling` says so from an offset on.  One step adds a token in front
(`Lexer.next_covers`, `Tiling.cons`), and the tiling of a whole source follows by
induction on its scan.
-/

namespace SceneTokens

open CodeUnit

/-- The offset where the last of some tokens ends, and `e` if there are none. -/
def Token.endOf (e : Int) (tokens : List Token) : Int :=
  (tokens.getLast?.map fun t => t.span.stop.offset).getD e

/-- The text of some tokens and of the pieces before each of them, from an offset on.  The
marker of a closed block has no text. -/
def Token.spelled (source : Text) : Int → List Token → Text
  | _, [] => []
  | e, t :: rest =>
    source.slice e t.span.start.offset ++ (if t.kind = .dedent then [] else t.value) ++
      spelled source t.span.stop.offset rest

open Token

/-- Some tokens tile a source from an offset on. -/
structure Tiling (source : Text) (e : Int) (tokens : List Token) : Prop where
  /-- A token starts no earlier than the one before it ends, and ends no earlier than it
  starts. -/
  ordered : ∀ before t after, tokens = before ++ t :: after →
    endOf e before ≤ t.span.start.offset ∧ t.span.start.offset ≤ t.span.stop.offset
  /-- The last token ends where the source does. -/
  complete : endOf e tokens = source.length
  /-- The value of a token is the text that it covers. -/
  value : ∀ t ∈ tokens, t.kind ≠ .dedent →
    t.value = source.slice t.span.start.offset t.span.stop.offset
  /-- The markers of closed blocks and of the end have no width. -/
  mark : ∀ t ∈ tokens, t.kind = .dedent ∨ t.kind = .endOfStream → t.span.start = t.span.stop
  /-- Spaces and tabs are passed over.  Only before the first token at the end of the source
  it may be more, if a line starts there: any whitespace but a line feed. -/
  gap : ∀ before t after, tokens = before ++ t :: after →
    (∀ u ∈ source.slice (endOf e before) t.span.start.offset, isHorizontal u = true) ∨
      t.span.start.offset = (source.length : Int) ∧
        (∀ p ∈ before, p.span.start.offset < source.length) ∧
        source.IsLineStart (endOf e before).toNat ∧
        ∀ u ∈ source.slice (endOf e before) t.span.start.offset,
          isSpace u = true ∧ u ≠ lineFeed
  /-- Put together in order, the pieces and the values are the source. -/
  spelled : Token.spelled source e tokens = source.drop e.toNat

/-! ## Slices -/

theorem Text.slice_add (t : Text) (m n : Nat) :
    t.slice (m : Int) ((m + n : Nat) : Int) = (t.drop m).take n := by
  rw [slice, Int.toNat_natCast, Int.toNat_natCast, List.drop_take, Nat.add_sub_cancel_left]

theorem Text.slice_self (t : Text) (n : Nat) : t.slice (n : Int) (n : Int) = [] :=
  slice_add t n 0

/-- A slice and what is left behind it. -/
theorem Text.slice_append_drop {t : Text} {m n : Nat} (h : m ≤ n) :
    t.slice (m : Int) (n : Int) ++ t.drop n = t.drop m := by
  obtain ⟨k, rfl⟩ := Nat.le.dest h
  rw [slice_add, ← List.drop_drop, List.take_append_drop]

theorem Text.slice_eq_nil {t : Text} {start stop : Int} (h : (t.length : Int) ≤ start) :
    t.slice start stop = [] := by
  refine List.drop_eq_nil_of_le (Nat.le_trans (List.length_take_le' _ _) ?_)
  omega

@[simp]
theorem Token.endOf_nil (e : Int) : endOf e [] = e := rfl

theorem Token.endOf_cons (e : Int) (t : Token) (rest : List Token) :
    endOf e (t :: rest) = endOf t.span.stop.offset rest := by
  cases rest with
  | nil => rfl
  | cons r rest => rfl

/-! ## What a token covers -/

/-- A step passes over `gap` units and takes `width` units as its token. -/
structure Lexer.Covers (lx : Lexer) (t : Token) (after : Lexer) (gap width : Nat) : Prop where
  le : gap + width ≤ lx.cursor.rest.length
  after : after.cursor = lx.cursor.skip (gap + width)
  span : t.span = ⟨(lx.cursor.skip gap).location, (lx.cursor.skip (gap + width)).location⟩
  value : t.kind ≠ .dedent → t.value = (lx.cursor.rest.drop gap).take width
  mark : t.kind = .dedent ∨ t.kind = .endOfStream → width = 0
  final : t.kind = .endOfStream → gap = lx.cursor.rest.length
  gap : (∀ u ∈ lx.cursor.rest.take gap, isHorizontal u = true) ∨
    gap = lx.cursor.rest.length ∧ lx.cursor.column = 0 ∧
      ∀ u ∈ lx.cursor.rest.take gap, isBlank u = true

/-- A token cut behind some spaces and tabs covers the units that it was cut from. -/
theorem Lexer.covers_cut {lx after : Lexer} {kind : TokenKind} {gap width : Nat}
    (hkind : kind ≠ .dedent ∧ kind ≠ .endOfStream)
    (hle : gap + width ≤ lx.cursor.rest.length)
    (hafter : after.cursor = lx.cursor.skip (gap + width))
    (hgap : ∀ u ∈ lx.cursor.rest.take gap, isHorizontal u = true) :
    lx.Covers ((lx.cursor.skip gap).cut kind width) after gap width where
  le := hle
  after := hafter
  span := by rw [Cursor.skip_add]; rfl
  value := fun _ => by rw [← Cursor.rest_skip]; rfl
  mark := fun h => absurd h (not_or.2 hkind)
  final := fun h => absurd h hkind.2
  gap := Or.inl hgap

theorem Lexer.covers_cut_here {lx after : Lexer} {kind : TokenKind} {width : Nat}
    (hkind : kind ≠ .dedent ∧ kind ≠ .endOfStream) (hle : width ≤ lx.cursor.rest.length)
    (hafter : after.cursor = lx.cursor.skip width) :
    lx.Covers (lx.cursor.cut kind width) after 0 width := by
  show lx.Covers ((lx.cursor.skip 0).cut kind width) after 0 width
  refine covers_cut hkind (by omega) ?_ (by simp)
  rw [Nat.zero_add]
  exact hafter

/-- A marker covers nothing. -/
theorem Lexer.covers_mark {lx after : Lexer} {kind : TokenKind} {value : Text} {gap : Nat}
    (hvalue : kind ≠ .dedent → value = [])
    (hfinal : kind = .endOfStream → gap = lx.cursor.rest.length)
    (hle : gap ≤ lx.cursor.rest.length) (hafter : after.cursor = lx.cursor.skip gap)
    (hgap : (∀ u ∈ lx.cursor.rest.take gap, isHorizontal u = true) ∨
      gap = lx.cursor.rest.length ∧ lx.cursor.column = 0 ∧
        ∀ u ∈ lx.cursor.rest.take gap, isBlank u = true) :
    lx.Covers ((lx.cursor.skip gap).mark kind value) after gap 0 where
  le := hle
  after := hafter
  span := rfl
  value := fun h => by rw [List.take_zero]; exact hvalue h
  mark := fun _ => rfl
  final := hfinal
  gap := hgap

/-- The units that a step passes over and the units that it takes. -/
theorem Lexer.next_covers {lx after : Lexer} {t : Token} (h : lx.next = (.ok t, after)) :
    ∃ gap width, lx.Covers t after gap width := by
  have hout := outcome_of_next h
  generalize hr : (Except.ok t : Except Fault Token) = r at hout
  cases hout with
  | blank hcolumn hshape =>
    cases hr
    obtain ⟨gap, more, hrest, -, hw⟩ := LineShape.exists_of_blank hshape
    refine ⟨0, _, covers_cut_here (by decide) ?_ rfl⟩
    simp [hrest, hw]
  | closing hcolumn hshape hblocks hhash hrun hlt =>
    cases hr
    exact ⟨0, 0, covers_mark (fun h => absurd rfl h) (by simp) (Nat.zero_le _) rfl
      (Or.inl (by simp))⟩
  | opening hcolumn hshape hhash hrun hlt =>
    cases hr
    exact ⟨0, _, covers_cut_here (by decide) lx.length_leading_le rfl⟩
  | divergence => cases hr
  | ending hgap =>
    cases hr
    obtain ⟨kind, value, hmark, hcursor, hvalue⟩ :=
      (lx.skip lx.cursor.rest.length).readEndOfInput_eq_mark
    rw [hmark]
    refine ⟨lx.cursor.rest.length, 0,
      covers_mark hvalue (fun _ => rfl) (Nat.le_refl _) hcursor ?_⟩
    rw [List.take_length]
    rcases hgap with hgap | ⟨hcolumn, hgap⟩
    · exact Or.inl hgap
    · exact Or.inr ⟨rfl, hcolumn, hgap⟩
  | @lexeme u more hbehind hstay =>
    obtain ⟨n, htakes⟩ := (lx.cursor.skip lx.leading.length).takes_readLexeme u
    obtain ⟨kind, hkind, rfl⟩ := htakes.token t hr.symm
    have hle := htakes.le
    rw [Cursor.rest_skip, List.length_drop] at hle
    have hlead := lx.length_leading_le
    refine ⟨lx.leading.length, n, covers_cut ?_ (by omega) ?_ ?_⟩
    · constructor <;> (rintro rfl; cases hkind)
    · rw [Cursor.skip_add, ← htakes.after]
    · rw [← leading_append_behind, List.take_left]
      exact fun u hu => isHorizontal_of_mem_leading hu

/-! ## Tilings, token by token -/

/-- A token and its place: it starts at `start` and ends at `stop`, and the text from `e` on
is passed over before it. -/
structure Token.Placed (source : Text) (e start stop : Nat) (t : Token) : Prop where
  bounds : e ≤ start ∧ start ≤ stop ∧ stop ≤ source.length
  startsAt : t.span.start.offset = start
  stopsAt : t.span.stop.offset = stop
  value : t.kind ≠ .dedent → t.value = source.slice start stop
  mark : t.kind = .dedent ∨ t.kind = .endOfStream → start = stop ∧ t.span.start = t.span.stop
  gap : (∀ u ∈ source.slice e start, isHorizontal u = true) ∨
    start = source.length ∧ source.IsLineStart e ∧
      ∀ u ∈ source.slice e start, isSpace u = true ∧ u ≠ lineFeed

/-- A step places its token behind the cursor. -/
theorem Lexer.Covers.placed {source : Text} {e gap width : Nat} {lx after : Lexer} {t : Token}
    (h : lx.Covers t after gap width) (he : e ≤ source.length)
    (hcursor : lx.cursor = Cursor.ofOffset source e) :
    t.Placed source e (e + gap) (e + gap + width) := by
  have hrest : lx.cursor.rest = source.drop e := by rw [hcursor, Cursor.rest_ofOffset]
  have hle := h.le
  rw [hrest, List.length_drop] at hle
  have hoffset : ∀ n, e + n ≤ source.length → (lx.cursor.skip n).offset = e + n := by
    intro n hn
    rw [hcursor, Cursor.skip_ofOffset, Cursor.offset_ofOffset hn]
  have hgapText : source.slice (e : Int) ((e + gap : Nat) : Int) = lx.cursor.rest.take gap := by
    rw [hrest, Text.slice_add]
  refine ⟨by omega, ?_, ?_, ?_, ?_, ?_⟩
  · rw [h.span]
    exact congrArg Int.ofNat (hoffset gap (by omega))
  · rw [h.span, Nat.add_assoc]
    exact congrArg Int.ofNat (hoffset (gap + width) (by omega))
  · intro hkind
    rw [h.value hkind, hrest, Text.slice_add, List.drop_drop]
  · intro hkind
    rw [h.span, h.mark hkind]
    exact ⟨rfl, rfl⟩
  · rw [hgapText]
    rcases h.gap with hgap | ⟨hend, hcolumn, hgap⟩
    · exact Or.inl hgap
    · rw [hcursor, Cursor.column_ofOffset_eq_zero_iff he] at hcolumn
      rw [hrest, List.length_drop] at hend
      refine Or.inr ⟨by omega, hcolumn, fun u hu => ?_⟩
      simpa [isBlank] using hgap u hu

namespace Tiling

/-- Nothing is left to tile at the end of the source. -/
theorem nil (source : Text) : Tiling source source.length [] where
  ordered := fun before t after h => by simp at h
  complete := rfl
  value := fun t ht => by simp at ht
  mark := fun t ht => by simp at ht
  gap := fun before t after h => by simp at h
  spelled := by simp [Token.spelled]

/-- No token starts before the offset from which the tokens are in order. -/
theorem le_start {e : Int} {tokens : List Token}
    (h : ∀ before t after, tokens = before ++ t :: after →
      endOf e before ≤ t.span.start.offset ∧ t.span.start.offset ≤ t.span.stop.offset) :
    ∀ p ∈ tokens, e ≤ p.span.start.offset := by
  induction tokens generalizing e with
  | nil => simp
  | cons t rest ih =>
    have ht := h [] t rest rfl
    rw [endOf_nil] at ht
    have hrest : ∀ p ∈ rest, t.span.stop.offset ≤ p.span.start.offset := by
      refine ih fun before p after hsplit => ?_
      rw [← endOf_cons e]
      exact h (t :: before) p after (by rw [hsplit]; rfl)
    intro p hp
    rcases List.mem_cons.1 hp with rfl | hp
    · exact ht.1
    · have := hrest p hp
      omega

section Cons

variable {source : Text} {e start stop : Nat} {t : Token} {rest : List Token}
variable (ht : t.Placed source e start stop) (hrest : Tiling source stop rest)
include ht hrest

/-- The pieces and values of a tiling with one more token in front. -/
theorem spelled_cons : Token.spelled source e (t :: rest) = source.drop e := by
  obtain ⟨he, hle, -⟩ := ht.bounds
  have hvalue : (if t.kind = .dedent then [] else t.value) = source.slice start stop := by
    split
    · rename_i hkind
      rw [(ht.mark (Or.inl hkind)).1, Text.slice_self]
    · rename_i hkind
      exact ht.value hkind
  have htail : Token.spelled source stop rest = source.drop stop := hrest.spelled
  rw [Token.spelled, ht.startsAt, ht.stopsAt, hvalue, htail, List.append_assoc,
    Text.slice_append_drop hle, Text.slice_append_drop he]

/-- Behind a token at the end of the source nothing is left to pass over, so a later piece
of whitespace other than spaces and tabs has no such token before it. -/
theorem gap_cons {before after : List Token} {p : Token} (hsplit : rest = before ++ p :: after) :
    (∀ u ∈ source.slice (endOf stop before) p.span.start.offset, isHorizontal u = true) ∨
      p.span.start.offset = (source.length : Int) ∧
        (∀ q ∈ t :: before, q.span.start.offset < source.length) ∧
        source.IsLineStart (endOf stop before).toNat ∧
        ∀ u ∈ source.slice (endOf stop before) p.span.start.offset,
          isSpace u = true ∧ u ≠ lineFeed := by
  obtain ⟨he, hle, hlen⟩ := ht.bounds
  rcases hrest.gap before p after hsplit with hgap | ⟨hend, hfirst, hline, hgap⟩
  · exact Or.inl hgap
  by_cases hstart : start < source.length
  · refine Or.inr ⟨hend, fun q hq => ?_, hline, hgap⟩
    rcases List.mem_cons.1 hq with rfl | hq
    · rw [ht.startsAt]
      omega
    · exact hfirst q hq
  · -- All tokens from here on are at the end of the source, so `before` is empty.
    have hbefore : before = [] := by
      refine List.eq_nil_iff_forall_not_mem.2 fun q hq => ?_
      have hlt := hfirst q hq
      have hge := le_start hrest.ordered q (by rw [hsplit]; exact List.mem_append_left _ hq)
      omega
    rw [hbefore, endOf_nil, Text.slice_eq_nil (by omega)]
    exact Or.inl (by simp)

/-- A token in front of a tiling. -/
theorem cons : Tiling source e (t :: rest) where
  ordered := by
    intro before p after hsplit
    cases before with
    | nil =>
      cases hsplit
      have := ht.bounds
      rw [endOf_nil, ht.startsAt, ht.stopsAt]
      omega
    | cons b before =>
      cases hsplit
      rw [endOf_cons, ht.stopsAt]
      exact hrest.ordered before p after rfl
  complete := by
    rw [endOf_cons, ht.stopsAt]
    exact hrest.complete
  value := by
    intro p hp hkind
    rcases List.mem_cons.1 hp with rfl | hp
    · rw [ht.startsAt, ht.stopsAt]
      exact ht.value hkind
    · exact hrest.value p hp hkind
  mark := by
    intro p hp hkind
    rcases List.mem_cons.1 hp with rfl | hp
    · exact (ht.mark hkind).2
    · exact hrest.mark p hp hkind
  gap := by
    intro before p after hsplit
    cases before with
    | nil =>
      cases hsplit
      rw [endOf_nil, ht.startsAt, Int.toNat_natCast]
      rcases ht.gap with hgap | ⟨hend, hline, hgap⟩
      · exact Or.inl hgap
      · exact Or.inr ⟨congrArg Int.ofNat hend, by simp, hline, hgap⟩
    | cons b before =>
      cases hsplit
      rw [endOf_cons, ht.stopsAt]
      exact gap_cons ht hrest rfl
  spelled := by
    rw [Int.toNat_natCast]
    exact spelled_cons ht hrest

end Cons

end Tiling

/-! ## Whole sources -/

/-- A scan that comes to the end of the stream tiles the rest of the source. -/
theorem Lexer.scan_tiles {source : Text} (lx : Lexer) {e : Nat} (he : e ≤ source.length)
    (hcursor : lx.cursor = Cursor.ofOffset source e) (hscan : lx.scan.fault = none) :
    Tiling source e lx.scan.tokens := by
  fun_induction scan lx generalizing e with
  | case1 lx fault after hnext => cases hscan
  | case2 lx token after hnext hkind =>
    obtain ⟨gap, width, hcovers⟩ := next_covers hnext
    have hplaced := hcovers.placed he hcursor
    have hend : e + gap + width = source.length := by
      have hlen := hcovers.final hkind
      rw [hcursor, Cursor.rest_ofOffset, List.length_drop] at hlen
      have := hcovers.mark (Or.inr hkind)
      omega
    rw [hend] at hplaced
    exact Tiling.cons hplaced (Tiling.nil source)
  | case3 lx token after hnext hkind ih =>
    obtain ⟨gap, width, hcovers⟩ := next_covers hnext
    have hplaced := hcovers.placed he hcursor
    refine Tiling.cons hplaced (ih hplaced.bounds.2.2 ?_ hscan)
    rw [hcovers.after, hcursor, Cursor.skip_ofOffset, Nat.add_assoc]

/-- The tokens of a source, comments included, tile it. -/
theorem tokenize_tiles {source : Text} {tokens : List Token}
    (h : tokenize source true = .ok tokens) : Tiling source 0 tokens := by
  have hscan : (Lexer.ofSource source).scan.fault = none ∧
      (Lexer.ofSource source).scan.tokens = tokens := by
    simp only [tokenize, Scan.result] at h
    split at h
    · cases h
    · rename_i hfault
      cases h
      exact ⟨hfault, rfl⟩
  rw [← hscan.2]
  exact Lexer.scan_tiles (Lexer.ofSource source) (Nat.zero_le _) rfl hscan.1

/-- A block, and behind it a line with nothing but a form feed, which no token covers. -/
theorem tokenize_tiles_form_feed :
    ∃ tokens, tokenize [0x61, 0x0A, 0x20, 0x62, 0x0A, 0x0C] true = .ok tokens ∧
      tokens.map (·.kind) =
        [.identifier, .newline, .indent, .identifier, .newline, .dedent, .endOfStream] ∧
      Tiling [0x61, 0x0A, 0x20, 0x62, 0x0A, 0x0C] 0 tokens := by
  have heval : (tokenize [0x61, 0x0A, 0x20, 0x62, 0x0A, 0x0C] true).toOption.map
      (·.map (·.kind)) =
        some [.identifier, .newline, .indent, .identifier, .newline, .dedent, .endOfStream] := by
    decide +kernel
  cases h : tokenize [0x61, 0x0A, 0x20, 0x62, 0x0A, 0x0C] true with
  | error fault =>
    rw [h] at heval
    cases heval
  | ok tokens =>
    rw [h] at heval
    exact ⟨tokens, rfl, Option.some.inj heval, tokenize_tiles h⟩

end SceneTokens
