import SceneTokens.Proofs.Step

/-!
# Why a read fails

A reader fails for one of five reasons, and each shows in the text ahead of the cursor.
`Cursor.Cause` lists them, each with the fault that is raised and with the number of
units that have been read by then.

* `Text.divergence?_eq_some`: what it means for a leading run to disagree with a block.
* `scanString_spec`: a string is a quote and a body (`StringBody`), and it ends behind the
  first quote, line feed or end of the source that no backslash takes into the body.  There
  is no other way to end (`Scanned.scanString_eq`).
* `cause_readString`, `cause_readNewline`, `cause_readSymbol` and `cause_readUnit`: the
  readers have no other reasons, wherever they are called.
* `cause_readLexeme`: in a line, where the unit at the cursor chooses the reader, it also
  says more about the reason.
-/

namespace SceneTokens

open CodeUnit

/-- What may stand behind the opening quote of a string: pairs of a backslash and any unit,
and units other than the quote, the backslash and the line feed. -/
inductive StringBody (quote : CodeUnit) : Text → Prop
  | nil : StringBody quote []
  | escape (v : CodeUnit) {rest : Text} (h : StringBody quote rest) :
      StringBody quote (backslash :: v :: rest)
  | plain {u : CodeUnit} {rest : Text} (hquote : u ≠ quote) (hslash : u ≠ backslash)
      (hfeed : u ≠ lineFeed) (h : StringBody quote rest) : StringBody quote (u :: rest)

/-! ## Runs that disagree -/

/-- Two runs agree up to the place where they diverge, and both have a unit there. -/
theorem Text.divergence?_eq_some {a b : Text} {i : Nat} (h : Text.divergence? a b = some i) :
    a.take i = b.take i ∧ ∃ x y, a[i]? = some x ∧ b[i]? = some y ∧ x ≠ y := by
  fun_induction Text.divergence? a b generalizing i with
  | case1 x xs y ys hxy ih =>
    obtain ⟨j, hj, rfl⟩ := Option.map_eq_some_iff.1 h
    obtain ⟨htake, hdiffer⟩ := ih hj
    rw [beq_iff_eq.1 hxy]
    exact ⟨by simp [htake], by simpa using hdiffer⟩
  | case2 x xs y ys hxy =>
    cases h
    exact ⟨rfl, x, y, rfl, rfl, by simpa using hxy⟩
  | case3 => cases h

theorem Text.lt_length_of_divergence? {a b : Text} {i : Nat}
    (h : Text.divergence? a b = some i) : i < a.length := by
  obtain ⟨-, x, -, hx, -⟩ := Text.divergence?_eq_some h
  exact (List.getElem?_eq_some_iff.1 hx).1

/-! ## Strings -/

namespace Cursor

/-- How the scan of a text behind an opening quote ends: at the unit behind a body, or at
the end of the text, possibly behind a backslash that takes no unit. -/
inductive Scanned (quote : CodeUnit) (t : Text) : Nat × StringEnd → Prop
  | closed {body more : Text} (hbody : StringBody quote body) (h : t = body ++ quote :: more) :
      Scanned quote t (body.length + 1, .closed)
  | lineBreak {body more : Text} (hbody : StringBody quote body)
      (h : t = body ++ lineFeed :: more) : Scanned quote t (body.length + 1, .lineBreak)
  | exhausted {body : Text} (hbody : StringBody quote body)
      (h : t = body ∨ t = body ++ [backslash]) : Scanned quote t (t.length, .exhausted)

/-- A pair in front of a text belongs to the body. -/
theorem Scanned.escape {quote : CodeUnit} {t : Text} {n : Nat} {ending : StringEnd}
    (v : CodeUnit) (h : Scanned quote t (n, ending)) :
    Scanned quote (backslash :: v :: t) (n + 2, ending) := by
  cases h with
  | closed hbody h =>
    rw [h]
    exact .closed (.escape v hbody) rfl
  | lineBreak hbody h =>
    rw [h]
    exact .lineBreak (.escape v hbody) rfl
  | exhausted hbody h =>
    refine .exhausted (.escape v hbody) ?_
    rcases h with rfl | rfl
    · exact .inl rfl
    · exact .inr rfl

/-- So does a plain unit. -/
theorem Scanned.plain {quote u : CodeUnit} {t : Text} {n : Nat} {ending : StringEnd}
    (hquote : u ≠ quote) (hslash : u ≠ backslash) (hfeed : u ≠ lineFeed)
    (h : Scanned quote t (n, ending)) : Scanned quote (u :: t) (n + 1, ending) := by
  cases h with
  | closed hbody h =>
    rw [h]
    exact .closed (.plain hquote hslash hfeed hbody) rfl
  | lineBreak hbody h =>
    rw [h]
    exact .lineBreak (.plain hquote hslash hfeed hbody) rfl
  | exhausted hbody h =>
    refine .exhausted (.plain hquote hslash hfeed hbody) ?_
    rcases h with rfl | rfl
    · exact .inl rfl
    · exact .inr rfl

theorem scanString_spec (quote : CodeUnit) (t : Text) : Scanned quote t (scanString quote t) := by
  fun_induction scanString quote t with
  | case1 => exact .exhausted .nil (.inl rfl)
  | case2 u hslash =>
    rw [beq_iff_eq.1 hslash]
    exact .exhausted .nil (.inr rfl)
  | case3 u hslash v rest n ending hscan ih =>
    rw [hscan] at ih
    rw [beq_iff_eq.1 hslash]
    exact ih.escape v
  | case4 u rest hslash hquote =>
    rw [beq_iff_eq.1 hquote]
    exact .closed (.nil : StringBody quote []) rfl
  | case5 u rest hslash hquote hfeed =>
    rw [beq_iff_eq.1 hfeed]
    exact .lineBreak (.nil : StringBody quote []) rfl
  | case6 u rest hslash hquote hfeed n ending hscan ih =>
    rw [hscan] at ih
    simp only [beq_iff_eq] at hslash hquote hfeed
    exact ih.plain hquote hslash hfeed

theorem scanString_plain {quote u : CodeUnit} {rest : Text} (hslash : u ≠ backslash)
    (hquote : u ≠ quote) (hfeed : u ≠ lineFeed) :
    scanString quote (u :: rest) =
      ((scanString quote rest).1 + 1, (scanString quote rest).2) := by
  rw [scanString.eq_def]
  simp [hslash, hquote, hfeed]

/-- A body is passed over, whatever stands behind it. -/
theorem scanString_body {quote : CodeUnit} {body : Text} (h : StringBody quote body)
    (rest : Text) :
    scanString quote (body ++ rest) =
      ((scanString quote rest).1 + body.length, (scanString quote rest).2) := by
  induction h with
  | nil => rfl
  | @escape v body _ ih =>
    rw [List.cons_append, List.cons_append, scanString]
    simp only [beq_self_eq_true, if_true, ih, List.length_cons]
    rfl
  | @plain u body hquote hslash hfeed _ ih =>
    rw [List.cons_append, scanString_plain hslash hquote hfeed, ih]
    rfl

/-- The scan ends in one way only. -/
theorem Scanned.scanString_eq {quote : CodeUnit} {t : Text} {x : Nat × StringEnd}
    (h : Scanned quote t x) (hquote : isQuote quote = true) : scanString quote t = x := by
  have hslash : (quote == backslash) = false := by
    apply beq_false_of_ne
    rintro rfl
    exact absurd hquote (by decide)
  have hfeed : (lineFeed == quote) = false := by
    apply beq_false_of_ne
    rintro rfl
    exact absurd hquote (by decide)
  cases h with
  | @closed body more hbody h =>
    rw [h, scanString_body hbody, scanString.eq_def]
    simp [hslash, Nat.add_comm]
  | @lineBreak body more hbody h =>
    rw [h, scanString_body hbody, scanString.eq_def]
    have hother : (lineFeed == backslash) = false := by decide
    simp [hother, hfeed, Nat.add_comm]
  | @exhausted body hbody h =>
    rcases h with rfl | rfl
    · have hscan := scanString_body hbody []
      rw [List.append_nil] at hscan
      rw [hscan]
      simp [scanString]
    · rw [scanString_body hbody, List.length_append]
      simp [scanString, Nat.add_comm]

/-! ## The reasons -/

/-- Why a reader fails at a cursor: its fault, and the number of units read by then. -/
inductive Cause (c : Cursor) : Fault → Nat → Prop
  /-- Nothing is left to read. -/
  | ended (h : c.rest = []) : Cause c (.unexpectedEnd c.location) 0
  /-- A line feed comes before the closing quote. -/
  | lineBreak {quote : CodeUnit} {body more : Text} (hbody : StringBody quote body)
      (h : c.rest = quote :: (body ++ lineFeed :: more)) :
      Cause c (.unterminatedString ⟨c.location, (c.skip (body.length + 2)).location⟩)
        (body.length + 2)
  /-- The end of the source comes before the closing quote. -/
  | exhausted {quote : CodeUnit} {body : Text} (hbody : StringBody quote body)
      (h : c.rest = quote :: body ∨ c.rest = quote :: (body ++ [backslash])) :
      Cause c (.unfinishedString ⟨c.location, (c.skip c.rest.length).location⟩) c.rest.length
  /-- A carriage return stands alone. -/
  | bareReturn {more : Text} (h : c.rest = carriageReturn :: more)
      (hfeed : more.head? ≠ some lineFeed) : Cause c (.bareCarriageReturn c.location) 1
  /-- Whitespace stands where a symbol is expected. -/
  | whitespace {u : CodeUnit} {more : Text} (h : c.rest = u :: more) (hu : isSpace u = true) :
      Cause c (.unsupportedWhitespace c.location [u]) 0

/-- No reader reads beyond the end of the source. -/
theorem Cause.le {c : Cursor} {fault : Fault} {n : Nat} (h : c.Cause fault n) :
    n ≤ c.rest.length := by
  cases h with
  | ended => exact Nat.zero_le _
  | lineBreak hbody h =>
    simp only [h, List.length_cons, List.length_append]
    omega
  | exhausted => exact Nat.le_refl _
  | bareReturn h => simp [h]
  | whitespace => exact Nat.zero_le _

theorem cause_readString {c after : Cursor} {fault : Fault}
    (h : c.readString = (.error fault, after)) : ∃ n, c.Cause fault n ∧ after = c.skip n := by
  unfold readString at h
  split at h
  · rename_i hrest
    cases h
    exact ⟨0, .ended hrest, rfl⟩
  · rename_i quote rest hrest
    have hspec := scanString_spec quote rest
    dsimp only at h
    generalize scanString quote rest = scanned at h hspec
    cases hspec with
    | closed => cases h
    | lineBreak hbody hsplit =>
      cases h
      exact ⟨_, .lineBreak hbody (by rw [hrest, hsplit]), rfl⟩
    | exhausted hbody hsplit =>
      have hlen : rest.length + 1 = c.rest.length := by rw [hrest, List.length_cons]
      rw [hlen] at h
      cases h
      refine ⟨c.rest.length, .exhausted hbody ?_, rfl⟩
      rcases hsplit with rfl | rfl
      · exact .inl hrest
      · exact .inr hrest

theorem cause_readNewline {c after : Cursor} {fault : Fault}
    (h : c.readNewline = (.error fault, after)) :
    ∃ n, c.Cause fault n ∧ after = c.skip n ∧
      (c.rest = [] ∨ fault.code = .bareCarriageReturn) := by
  unfold readNewline at h
  split at h
  · rename_i hrest
    cases h
    exact ⟨0, .ended hrest, rfl, .inl hrest⟩
  · rename_i u rest hrest
    split at h
    · rename_i hreturn
      split at h
      · cases h
      · rename_i hfeed
        cases h
        rw [beq_iff_eq.1 hreturn] at hrest
        exact ⟨1, .bareReturn hrest (by simpa using hfeed), rfl, .inr rfl⟩
    · cases h

/-- A symbol that is one unit of a class is the unit at the head of the text. -/
theorem headSymbol_of_isOne {t symbol : Text} {p : CodeUnit → Bool}
    (hsymbol : Text.headSymbol t = symbol) (h : Text.isOne p symbol = true) :
    ∃ u more, symbol = [u] ∧ t = u :: more ∧ p u = true := by
  subst hsymbol
  cases t with
  | nil => simp [Text.headSymbol, Text.isOne] at h
  | cons u more =>
    have hone : Text.headSymbol (u :: more) = [u] := by
      cases more with
      | nil => rfl
      | cons v more =>
        rw [Text.headSymbol] at h ⊢
        split
        · rename_i hpair
          simp [hpair, Text.isOne] at h
        · rfl
    rw [hone] at h ⊢
    exact ⟨u, more, rfl, rfl, h⟩

theorem headSymbol_eq_nil {t : Text} (h : Text.headSymbol t = []) : t = [] := by
  cases t with
  | nil => rfl
  | cons u more =>
    cases more with
    | nil => simp [Text.headSymbol] at h
    | cons v more =>
      rw [Text.headSymbol] at h
      split at h <;> cases h

/-- A symbol is the beginning of the text. -/
theorem headSymbol_begins (t : Text) : Text.headSymbol t <+: t := by
  unfold Text.headSymbol
  split
  · exact List.prefix_rfl
  · exact List.prefix_rfl
  · split <;> simp

theorem isPair_eq_false (u : CodeUnit) {v : CodeUnit} (h : isLowSurrogate v = false) :
    isPair u v = false := by
  rw [isPair, h, Bool.and_false]

theorem lineFeed_notMem_headSymbol {u : CodeUnit} (t : Text) (hu : u ≠ lineFeed) :
    lineFeed ∉ Text.headSymbol (u :: t) := by
  cases t with
  | nil => simpa [Text.headSymbol] using Ne.symm hu
  | cons v t =>
    rw [Text.headSymbol]
    split
    · rename_i hpair
      have hv : v ≠ lineFeed := by
        rintro rfl
        rw [isPair_eq_false u (by decide)] at hpair
        cases hpair
      simp [Ne.symm hu, Ne.symm hv]
    · simpa using Ne.symm hu

theorem cause_readSymbol {c after : Cursor} {fault : Fault}
    (h : c.readSymbol = (.error fault, after)) :
    ∃ n, c.Cause fault n ∧ after = c.skip n ∧
      (c.rest = [] ∨ fault.code = .unsupportedWhitespace) := by
  unfold readSymbol at h
  split at h
  · rename_i hnone
    cases h
    have hrest := headSymbol_eq_nil hnone
    exact ⟨0, .ended hrest, rfl, .inl hrest⟩
  · split at h
    · rename_i hspace
      cases h
      obtain ⟨u, more, hsymbol, hrest, hu⟩ := headSymbol_of_isOne rfl hspace
      rw [hsymbol]
      exact ⟨0, .whitespace hrest hu, rfl, .inr rfl⟩
    · cases h

theorem cause_readUnit {c after : Cursor} {fault : Fault}
    (h : c.readUnit = (.error fault, after)) : ∃ n, c.Cause fault n ∧ after = c.skip n := by
  unfold readUnit at h
  split at h
  · rename_i hrest
    cases h
    exact ⟨0, .ended hrest, rfl⟩
  · cases h

/-- A lexeme fails behind a quote, at a carriage return, or at whitespace that ends no
line. -/
theorem cause_readLexeme {c after : Cursor} {u : CodeUnit} {more : Text} {fault : Fault}
    (hrest : c.rest = u :: more) (h : c.readLexeme u = (.error fault, after)) :
    ∃ n, c.Cause fault n ∧ after = c.skip n ∧
      (isQuote u = true ∨ fault.code = .bareCarriageReturn ∨
        fault.code = .unsupportedWhitespace ∧ isLineTerminator u = false) := by
  have hne : c.rest ≠ [] := by simp [hrest]
  unfold readLexeme at h
  split at h
  · cases h
  split at h
  · cases h
  split at h
  · cases h
  split at h
  · rename_i hquote
    obtain ⟨n, hcause, hafter⟩ := cause_readString h
    exact ⟨n, hcause, hafter, .inl hquote⟩
  split at h
  · obtain ⟨n, hcause, hafter, hcode⟩ := cause_readNewline h
    exact ⟨n, hcause, hafter, .inr (.inl (hcode.resolve_left hne))⟩
  · rename_i hterminator
    obtain ⟨n, hcause, hafter, hcode⟩ := cause_readSymbol h
    refine ⟨n, hcause, hafter, .inr (.inr ⟨hcode.resolve_left hne, ?_⟩)⟩
    simpa using hterminator

end Cursor

end SceneTokens
