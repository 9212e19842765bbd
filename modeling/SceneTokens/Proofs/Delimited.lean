import Mathlib.Algebra.Group.Nat.Defs
import SceneTokens.Document
import SceneTokens.Proofs.Messages

/-!
# Texts that show where they end

Numerals, quoted texts and structured documents are written one behind the other.  They can
be told apart again because each of them shows where it ends: if the writings of two values
agree up to some texts behind them, then the values are the same (`Delimited`).  A numeral
needs a text behind it that does not begin with a digit; a quoted text needs nothing, since
its closing quote is the first one that no backslash stands before.

* `Text.unquote_quoteBody`: the escapes of a quoted text can be undone.  Half of a surrogate
  pair that stands alone is the only unit of its kind with an escape, and a pair has none, so
  neither is taken for the other.
* `Document.delimited_renderAt`: by induction on the document.  Its first unit tells what kind
  of document it is, and an item of an array or an object ends at a comma or a line feed.

Main statement: `Document.render_injective`.
-/

namespace SceneTokens

open CodeUnit

/-- A text does not begin with a unit of a class. -/
def Text.Stops (p : CodeUnit → Bool) (t : Text) : Prop := ∀ u ∈ t.head?, p u = false

/-- What is written for a value shows where it ends, if no unit of a class is next. -/
def DelimitedAt {α : Type} (write : α → Text) (p : CodeUnit → Bool) (a : α) : Prop :=
  ∀ ⦃b : α⦄ ⦃r s : Text⦄, r.Stops p → s.Stops p → write a ++ r = write b ++ s → a = b ∧ r = s

/-- Whatever is written shows where it ends, if no unit of a class is next. -/
def Delimited {α : Type} (write : α → Text) (p : CodeUnit → Bool) : Prop :=
  ∀ ⦃a : α⦄, DelimitedAt write p a

theorem Delimited.injective {α : Type} {write : α → Text} {p : CodeUnit → Bool}
    (h : Delimited write p) : Function.Injective write := by
  intro a b hab
  have hnil : Text.Stops p [] := by simp [Text.Stops]
  exact (h hnil hnil (by simpa using hab)).1

namespace Text

theorem stops_cons {p : CodeUnit → Bool} {u : CodeUnit} {t : Text} (h : p u = false) :
    Stops p (u :: t) := by
  simpa [Stops] using h

/-- A run of units of a class ends where the class stops. -/
theorem takeWhile_run {p : CodeUnit → Bool} {run rest : Text} (hrun : ∀ u ∈ run, p u = true)
    (hrest : rest.Stops p) : (run ++ rest).takeWhile p = run := by
  cases rest with
  | nil => simpa using hrun
  | cons u rest => exact takeWhile_append_cons hrun (hrest u rfl)

/-- Two runs of a class with texts behind them at which the class stops. -/
theorem run_append_inj {p : CodeUnit → Bool} {a b r s : Text} (ha : ∀ u ∈ a, p u = true)
    (hb : ∀ u ∈ b, p u = true) (hr : r.Stops p) (hs : s.Stops p) (h : a ++ r = b ++ s) :
    a = b ∧ r = s := by
  have hab : a = b := by rw [← takeWhile_run ha hr, h, takeWhile_run hb hs]
  subst hab
  exact ⟨rfl, List.append_cancel_left h⟩

/-! ## Numerals -/

/-- The number of a text of digits. -/
def numeralValue (t : Text) : Nat := t.foldl (fun v u => 10 * v + (u.toNat - 0x30)) 0

theorem toNat_digit : ∀ d < 10, (digit d).toNat = 0x30 + d := by decide

theorem numeralValue_decimal (n : Nat) : numeralValue (decimal n) = n := by
  fun_induction decimal n with
  | case1 n hn =>
    show 10 * 0 + ((digit n).toNat - 0x30) = n
    rw [toNat_digit n hn]
    omega
  | case2 n hn ih =>
    rw [numeralValue, List.foldl_append]
    show 10 * numeralValue (decimal (n / 10)) + ((digit (n % 10)).toNat - 0x30) = n
    rw [ih, toNat_digit (n % 10) (by omega)]
    omega

theorem delimited_decimal : Delimited decimal isDigit := by
  intro m n r s hr hs h
  obtain ⟨hmn, hrs⟩ := run_append_inj (fun _ => isDigit_of_mem_decimal)
    (fun _ => isDigit_of_mem_decimal) hr hs h
  refine ⟨?_, hrs⟩
  rw [← numeralValue_decimal m, hmn, numeralValue_decimal]

theorem exists_decimal_eq_cons (n : Nat) : ∃ u rest, decimal n = u :: rest ∧ isDigit u = true := by
  obtain ⟨u, rest, h⟩ := List.exists_cons_of_ne_nil (decimal_ne_nil n)
  exact ⟨u, rest, h, isDigit_of_mem_decimal (h ▸ List.mem_cons_self)⟩

/-- No numeral of a natural number begins with a sign. -/
theorem decimal_append_ne (n : Nat) (r s : Text) : decimal n ++ r ≠ hyphen :: s := by
  obtain ⟨u, rest, hdecimal, hu⟩ := exists_decimal_eq_cons n
  rw [hdecimal]
  intro h
  injection h with hhead
  rw [hhead] at hu
  exact absurd hu (by decide)

theorem delimited_decimalInt : Delimited decimalInt isDigit := by
  intro m n r s hr hs h
  match m, n with
  | .ofNat m, .ofNat n =>
    obtain ⟨rfl, hrs⟩ := delimited_decimal hr hs h
    exact ⟨rfl, hrs⟩
  | .ofNat m, .negSucc n => exact absurd h (decimal_append_ne m r _)
  | .negSucc m, .ofNat n => exact absurd h.symm (decimal_append_ne n s _)
  | .negSucc m, .negSucc n =>
    obtain ⟨hmn, hrs⟩ := delimited_decimal hr hs (List.tail_eq_of_cons_eq h)
    exact ⟨congrArg Int.negSucc (Nat.succ.inj hmn), hrs⟩

/-! ## Quoted texts -/

/-- The value of a hexadecimal digit with small letters. -/
def hexValue (u : CodeUnit) : Nat := if isDigit u then u.toNat - 0x30 else u.toNat - 0x57

/-- The number of a text of hexadecimal digits with small letters. -/
def hexadecimalValue (t : Text) : Nat := t.foldl (fun v u => 16 * v + hexValue u) 0

theorem hexValue_hexDigit : ∀ d < 16, hexValue (hexDigit .lower d) = d := by decide

/-- The zeros in front of a numeral are worth nothing. -/
theorem hexadecimalValue_replicate (k : Nat) (t : Text) :
    hexadecimalValue (List.replicate k zero ++ t) = hexadecimalValue t := by
  induction k with
  | zero => rfl
  | succ k ih => exact ih

theorem hexadecimalValue_hexadecimal (width n : Nat) :
    hexadecimalValue (hexadecimal .lower width n) = n := by
  fun_induction hexadecimal .lower width n with
  | case1 width n hn =>
    rw [hexadecimalValue_replicate]
    show 16 * 0 + hexValue (hexDigit .lower n) = n
    rw [hexValue_hexDigit n hn]
    omega
  | case2 width n hn ih =>
    rw [hexadecimalValue, List.foldl_append]
    show 16 * hexadecimalValue (hexadecimal .lower (width - 1) (n / 16)) +
      hexValue (hexDigit .lower (n % 16)) = n
    rw [ih, hexValue_hexDigit (n % 16) (by omega)]
    omega

theorem length_hexadecimal (letters : LetterCase) {width n : Nat} (hwidth : 0 < width)
    (hn : n < 16 ^ width) : (hexadecimal letters width n).length = width := by
  fun_induction hexadecimal letters width n with
  | case1 width n _ =>
    rw [List.length_append, List.length_replicate, List.length_singleton]
    omega
  | case2 width n hlarge ih =>
    have hlong : 1 < width := by
      by_contra hshort
      have hone : width = 1 := by omega
      rw [hone] at hn
      omega
    have hpower : 16 ^ width = 16 * 16 ^ (width - 1) := by
      rw [← Nat.pow_succ', Nat.succ_eq_add_one, Nat.sub_add_cancel hwidth]
    rw [List.length_append, ih (by omega) (by omega), List.length_singleton]
    omega

/-- The unit that a letter behind a backslash stands for. -/
def unescape (u : CodeUnit) : CodeUnit :=
  if u == 0x62 then 0x08
  else if u == 0x74 then tab
  else if u == 0x6E then lineFeed
  else if u == 0x66 then 0x0C
  else if u == 0x72 then carriageReturn
  else u

/-- Undoes the quoting of a text behind its opening quote.  The result is the text, and what
follows the closing quote. -/
def unquote : Text → Option (Text × Text)
  | [] => none
  | u :: rest =>
    if u == doubleQuote then some ([], rest)
    else if u == backslash then
      match rest with
      | [] => none
      | v :: rest =>
        if v == 0x75 then
          match rest with
          | a :: b :: c :: d :: rest =>
            (unquote rest).map (Prod.map ((hexadecimalValue [a, b, c, d]).toUInt16 :: ·) id)
          | _ => none
        else (unquote rest).map (Prod.map (unescape v :: ·) id)
    else (unquote rest).map (Prod.map (u :: ·) id)

/-- Units without an escape stand for themselves. -/
theorem unquote_cons {u : CodeUnit} (hquote : u ≠ doubleQuote) (hslash : u ≠ backslash)
    (rest : Text) : unquote (u :: rest) = (unquote rest).map (Prod.map (u :: ·) id) := by
  rw [unquote.eq_def]
  simp [hquote, hslash]

theorem unquote_short {v : CodeUnit} (hv : v ≠ 0x75) (rest : Text) :
    unquote (backslash :: v :: rest) = (unquote rest).map (Prod.map (unescape v :: ·) id) := by
  have hquote : backslash ≠ doubleQuote := by decide
  rw [unquote.eq_def]
  simp [hquote, hv]

theorem unquote_numericEscape (u : CodeUnit) (rest : Text) :
    unquote (numericEscape u ++ rest) = (unquote rest).map (Prod.map (u :: ·) id) := by
  have hquote : backslash ≠ doubleQuote := by decide
  have hvalue := hexadecimalValue_hexadecimal 4 u.toNat
  have hlength : (hexadecimal .lower 4 u.toNat).length = 4 :=
    length_hexadecimal .lower (by decide) u.toNat_lt
  obtain ⟨a, b, c, d, hdigits⟩ :
      ∃ a b c d, hexadecimal .lower 4 u.toNat = [a, b, c, d] := by
    match hexadecimal .lower 4 u.toNat, hlength with
    | [a, b, c, d], _ => exact ⟨a, b, c, d, rfl⟩
  rw [hdigits] at hvalue
  have hescape : numericEscape u = backslash :: 0x75 :: [a, b, c, d] := by
    rw [numericEscape, hdigits]
    rfl
  rw [hescape, unquote.eq_def]
  simp [hquote, hvalue]

/-- The units with a letter as their escape. -/
def lettered : List CodeUnit :=
  [doubleQuote, backslash, 0x08, tab, lineFeed, 0x0C, carriageReturn]

theorem quoteUnit_of_mem {u : CodeUnit} (hu : u ∈ lettered) :
    ∃ v, quoteUnit u = [backslash, v] ∧ v ≠ 0x75 ∧ unescape v = u := by
  have hall : ∀ u ∈ lettered, quoteUnit u = [backslash, (quoteUnit u).getLastD 0] ∧
      (quoteUnit u).getLastD 0 ≠ 0x75 ∧ unescape ((quoteUnit u).getLastD 0) = u := by
    simp only [lettered, List.forall_mem_cons, List.not_mem_nil, false_imp_iff, implies_true,
      and_true]
    decide +kernel
  exact ⟨_, hall u hu⟩

theorem quoteUnit_of_notMem {u : CodeUnit} (hu : u ∉ lettered) :
    quoteUnit u = numericEscape u ∨ quoteUnit u = [u] := by
  simp only [lettered, List.mem_cons, List.not_mem_nil, or_false, not_or] at hu
  simp only [quoteUnit, beq_iff_eq, hu, if_false]
  split
  · exact .inl rfl
  · exact .inr rfl

theorem unquote_quoteUnit (u : CodeUnit) (rest : Text) :
    unquote (quoteUnit u ++ rest) = (unquote rest).map (Prod.map (u :: ·) id) := by
  by_cases hu : u ∈ lettered
  · obtain ⟨v, hquoted, hv, hunescape⟩ := quoteUnit_of_mem hu
    rw [hquoted, ← hunescape]
    exact unquote_short hv rest
  · rcases quoteUnit_of_notMem hu with hquoted | hquoted <;> rw [hquoted]
    · exact unquote_numericEscape u rest
    · have hquote : u ≠ doubleQuote := by
        rintro rfl
        exact hu (by decide)
      have hslash : u ≠ backslash := by
        rintro rfl
        exact hu (by decide)
      exact unquote_cons hquote hslash rest

/-- A unit that is no surrogate is no half of a pair. -/
theorem ne_of_isPair {u v x : CodeUnit} (h : isPair u v = true)
    (hx : isHighSurrogate x = false ∧ isLowSurrogate x = false) : u ≠ x ∧ v ≠ x := by
  rw [isPair, Bool.and_eq_true] at h
  constructor
  · rintro rfl
    exact absurd h.1 (by simp [hx.1])
  · rintro rfl
    exact absurd h.2 (by simp [hx.2])

/-- Quoting can be undone, whatever follows the closing quote. -/
theorem unquote_quoteBody (t rest : Text) :
    unquote (quoteBody t ++ doubleQuote :: rest) = some (t, rest) := by
  have hclose : unquote (doubleQuote :: rest) = some ([], rest) := by
    rw [unquote.eq_def]
    rfl
  fun_induction quoteBody t with
  | case1 => exact hclose
  | case2 u =>
    rw [unquote_quoteUnit, hclose]
    rfl
  | case3 u v more hpair ih =>
    obtain ⟨huquote, hvquote⟩ := ne_of_isPair (x := doubleQuote) hpair (by decide)
    obtain ⟨huslash, hvslash⟩ := ne_of_isPair (x := backslash) hpair (by decide)
    rw [List.cons_append, List.cons_append, unquote_cons huquote huslash,
      unquote_cons hvquote hvslash, ih]
    rfl
  | case4 u v more hpair ih =>
    rw [List.append_assoc, unquote_quoteUnit, ih]
    rfl

theorem delimited_quoted : Delimited quoted fun _ => false := by
  intro a b r s _ _ h
  have hbody : quoteBody a ++ doubleQuote :: r = quoteBody b ++ doubleQuote :: s := by
    simpa [quoted] using h
  have hread := congrArg unquote hbody
  rw [unquote_quoteBody, unquote_quoteBody] at hread
  injection hread with hpair
  exact Prod.mk.inj hpair

theorem stops_false (t : Text) : t.Stops fun _ => false := fun _ _ => rfl

end Text

/-! ## Documents -/

namespace Document

/-- What holds of a document if it holds of its items holds of every document. -/
@[elab_as_elim]
theorem induction {motive : Document → Prop} (null : motive .null) (int : ∀ n, motive (.int n))
    (text : ∀ t, motive (.text t))
    (array : ∀ items, (∀ item ∈ items, motive item) → motive (.array items))
    (object : ∀ fields, (∀ field ∈ fields, motive field.2) → motive (.object fields))
    (d : Document) : motive d :=
  match d with
  | .null => null
  | .int n => int n
  | .text t => text t
  | .array items => array items fun item _ => induction null int text array object item
  | .object fields =>
    object fields fun field _ => induction null int text array object field.2
termination_by sizeOf d
decreasing_by
  · have := List.sizeOf_lt_of_mem ‹item ∈ items›
    simp only [Document.array.sizeOf_spec]
    omega
  · have := List.sizeOf_lt_of_mem ‹field ∈ fields›
    have : sizeOf field.2 < sizeOf field := by
      cases field
      simp only [Prod.mk.sizeOf_spec]
      omega
    simp only [Document.object.sizeOf_spec]
    omega

/-! ### Rows -/

/-- The line break in front of a row. -/
def margin (depth : Nat) : Text := lineFeed :: Text.spaces (2 * (depth + 1))

/-- What stands behind the first of some rows, up to the closing unit. -/
def behindRow (closing : CodeUnit) (depth : Nat) : List Text → Text
  | [] => lineFeed :: Text.spaces (2 * depth) ++ [closing]
  | row :: rows => comma :: margin depth ++ row ++ behindRow closing depth rows

theorem enclose_cons (opening closing : CodeUnit) (depth : Nat) (row : Text) (rows : List Text) :
    enclose opening closing depth (row :: rows) =
      opening :: margin depth ++ row ++ behindRow closing depth rows := by
  have hrows : ∀ row, (comma :: margin depth).intercalate (row :: rows) ++
      lineFeed :: Text.spaces (2 * depth) ++ [closing] =
        row ++ behindRow closing depth rows := by
    induction rows with
    | nil => simp [behindRow]
    | cons next rows ih =>
      intro row
      rw [List.intercalate_cons_cons, behindRow, List.append_assoc (_ ++ _) _ _,
        List.append_assoc (_ ++ _) _ _, ← List.append_assoc _ _ [closing], ih next]
      simp
  have henclose : enclose opening closing depth (row :: rows) =
      opening :: margin depth ++ ((comma :: margin depth).intercalate (row :: rows) ++
        lineFeed :: Text.spaces (2 * depth) ++ [closing]) := by
    simp [enclose, margin]
  rw [henclose, hrows row, List.append_assoc]

theorem stops_behindRow (closing : CodeUnit) (depth : Nat) (rows : List Text) (r : Text) :
    (behindRow closing depth rows ++ r).Stops isDigit := by
  cases rows with
  | nil => exact Text.stops_cons (by decide)
  | cons row rows => exact Text.stops_cons (by decide)

section Rows

variable {α : Type} {write : α → Text} {opening closing : CodeUnit} {depth : Nat}
  {xs ys : List α} {r s : Text}

/-- The rows behind the first one are told apart by the commas in front of them. -/
theorem behindRow_append_inj (hwrite : ∀ x ∈ xs, DelimitedAt write isDigit x)
    (h : behindRow closing depth (xs.map write) ++ r =
      behindRow closing depth (ys.map write) ++ s) : xs = ys ∧ r = s := by
  have hmark : comma ≠ lineFeed := by decide
  induction xs generalizing ys with
  | nil =>
    cases ys with
    | nil => exact ⟨rfl, List.append_cancel_left h⟩
    | cons y ys =>
      injection h with hhead
      exact absurd hhead.symm hmark
  | cons x xs ih =>
    obtain ⟨hx, hxs⟩ := List.forall_mem_cons.1 hwrite
    cases ys with
    | nil =>
      injection h with hhead
      exact absurd hhead hmark
    | cons y ys =>
      simp only [List.map_cons, behindRow, List.append_assoc] at h
      obtain ⟨rfl, hrest⟩ := hx (stops_behindRow _ _ _ _) (stops_behindRow _ _ _ _)
        (List.append_cancel_left h)
      obtain ⟨rfl, hrs⟩ := ih hxs hrest
      exact ⟨rfl, hrs⟩

theorem enclose_append_inj (hclosing : closing ≠ lineFeed)
    (hwrite : ∀ x ∈ xs, DelimitedAt write isDigit x)
    (h : enclose opening closing depth (xs.map write) ++ r =
      enclose opening closing depth (ys.map write) ++ s) : xs = ys ∧ r = s := by
  cases xs with
  | nil =>
    cases ys with
    | nil =>
      injection h with _ htail
      injection htail with _ hrs
      exact ⟨rfl, hrs⟩
    | cons y ys =>
      rw [List.map_cons, enclose_cons] at h
      injection h with _ htail
      injection htail with hhead
      exact absurd hhead hclosing
  | cons x xs =>
    obtain ⟨hx, hxs⟩ := List.forall_mem_cons.1 hwrite
    cases ys with
    | nil =>
      rw [List.map_cons, enclose_cons] at h
      injection h with _ htail
      injection htail with hhead
      exact absurd hhead.symm hclosing
    | cons y ys =>
      rw [List.map_cons, List.map_cons, enclose_cons, enclose_cons] at h
      simp only [List.append_assoc] at h
      obtain ⟨rfl, hrest⟩ := hx (stops_behindRow _ _ _ _) (stops_behindRow _ _ _ _)
        (List.append_cancel_left h)
      obtain ⟨rfl, hrs⟩ := behindRow_append_inj hxs hrest
      exact ⟨rfl, hrs⟩

end Rows

/-! ### Kinds of document -/

/-- The number of the kind of a document. -/
def kind : Document → Nat
  | .null => 0
  | .int _ => 1
  | .text _ => 2
  | .array _ => 3
  | .object _ => 4

/-- The number of the kind of the documents that begin with a unit. -/
def kindOf (u : CodeUnit) : Nat :=
  if u == 0x6E then 0
  else if u == doubleQuote then 2
  else if u == openBracket then 3
  else if u == openBrace then 4
  else 1

theorem exists_enclose (opening closing : CodeUnit) (depth : Nat) (rows : List Text) :
    ∃ rest, enclose opening closing depth rows = opening :: rest := by
  cases rows with
  | nil => exact ⟨_, rfl⟩
  | cons row rows => exact ⟨_, rfl⟩

/-- The first unit of a document tells its kind. -/
theorem exists_renderAt_eq_cons (depth : Nat) (d : Document) :
    ∃ u rest, renderAt depth d = u :: rest ∧ kindOf u = d.kind := by
  have hdigit : ∀ u, isDigit u = true → kindOf u = 1 := by
    intro u hu
    have hne : u ≠ 0x6E ∧ u ≠ doubleQuote ∧ u ≠ openBracket ∧ u ≠ openBrace := by
      refine ⟨?_, ?_, ?_, ?_⟩ <;> (rintro rfl; exact absurd hu (by decide))
    simp [kindOf, hne]
  cases d with
  | null => exact ⟨0x6E, _, rfl, rfl⟩
  | int n =>
    match n with
    | .ofNat n =>
      obtain ⟨u, rest, hdecimal, hu⟩ := Text.exists_decimal_eq_cons n
      exact ⟨u, rest, hdecimal, hdigit u hu⟩
    | .negSucc n => exact ⟨hyphen, _, rfl, rfl⟩
  | text t => exact ⟨doubleQuote, _, rfl, rfl⟩
  | array items =>
    obtain ⟨rest, hrest⟩ :=
      exists_enclose openBracket closeBracket depth (renderItems (depth + 1) items)
    exact ⟨openBracket, rest, by rw [renderAt, hrest], rfl⟩
  | object fields =>
    obtain ⟨rest, hrest⟩ :=
      exists_enclose openBrace closeBrace depth (renderFields (depth + 1) fields)
    exact ⟨openBrace, rest, by rw [renderAt, hrest], rfl⟩

theorem kind_eq_of_append {depth : Nat} {d e : Document} {r s : Text}
    (h : renderAt depth d ++ r = renderAt depth e ++ s) : d.kind = e.kind := by
  obtain ⟨u, rest, hd, hu⟩ := exists_renderAt_eq_cons depth d
  obtain ⟨v, rest', he, hv⟩ := exists_renderAt_eq_cons depth e
  rw [hd, he] at h
  injection h with hhead
  rw [← hu, ← hv, hhead]

/-! ### Whole documents -/

/-- The text of a field of an object. -/
def renderField (depth : Nat) (field : Text × Document) : Text :=
  Text.quoted field.1 ++ colon :: space :: renderAt depth field.2

theorem renderItems_eq (depth : Nat) (items : List Document) :
    renderItems depth items = items.map (renderAt depth) := by
  induction items with
  | nil => rfl
  | cons item items ih => rw [renderItems, ih, List.map_cons]

theorem renderFields_eq (depth : Nat) (fields : List (Text × Document)) :
    renderFields depth fields = fields.map (renderField depth) := by
  induction fields with
  | nil => rfl
  | cons field fields ih =>
    rw [renderFields, ih]
    rfl

theorem delimitedAt_renderField {depth : Nat} {field : Text × Document}
    (h : DelimitedAt (renderAt depth) isDigit field.2) :
    DelimitedAt (renderField depth) isDigit field := by
  intro other r s hr hs heq
  simp only [renderField, List.append_assoc, List.cons_append] at heq
  obtain ⟨hname, hrest⟩ := Text.delimited_quoted (Text.stops_false _) (Text.stops_false _) heq
  injection hrest with _ hrest
  injection hrest with _ hrest
  obtain ⟨hvalue, hrs⟩ := h hr hs hrest
  exact ⟨Prod.ext hname hvalue, hrs⟩

/-- A document shows where it ends, at any depth. -/
theorem delimited_renderAt (depth : Nat) : Delimited (renderAt depth) isDigit := by
  intro d
  induction d using induction generalizing depth with
  | null =>
    intro e r s _ _ h
    have hkind := kind_eq_of_append h
    cases e with
    | null => exact ⟨rfl, List.append_cancel_left h⟩
    | int | text | array | object => cases hkind
  | int n =>
    intro e r s hr hs h
    have hkind := kind_eq_of_append h
    cases e with
    | int m =>
      obtain ⟨rfl, hrs⟩ := Text.delimited_decimalInt hr hs h
      exact ⟨rfl, hrs⟩
    | null | text | array | object => cases hkind
  | text t =>
    intro e r s _ _ h
    have hkind := kind_eq_of_append h
    cases e with
    | text t' =>
      obtain ⟨rfl, hrs⟩ := Text.delimited_quoted (Text.stops_false r) (Text.stops_false s) h
      exact ⟨rfl, hrs⟩
    | null | int | array | object => cases hkind
  | array items ih =>
    intro e r s _ _ h
    have hkind := kind_eq_of_append h
    cases e with
    | array items' =>
      rw [renderAt, renderAt, renderItems_eq, renderItems_eq] at h
      obtain ⟨rfl, hrs⟩ := enclose_append_inj (by decide) (fun item hitem => ih item hitem _) h
      exact ⟨rfl, hrs⟩
    | null | int | text | object => cases hkind
  | object fields ih =>
    intro e r s _ _ h
    have hkind := kind_eq_of_append h
    cases e with
    | object fields' =>
      rw [renderAt, renderAt, renderFields_eq, renderFields_eq] at h
      obtain ⟨rfl, hrs⟩ := enclose_append_inj (by decide)
        (fun field hfield => delimitedAt_renderField (ih field hfield _)) h
      exact ⟨rfl, hrs⟩
    | null | int | text | array => cases hkind

/-- Two documents with the same text are the same. -/
theorem render_injective : Function.Injective render := (delimited_renderAt 0).injective

end Document

end SceneTokens
