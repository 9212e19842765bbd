import SceneTokens.Proofs.Values
import SceneTokens.Report.Template

/-!
# Filled templates

`Template.HasPieces` reads a template from left to right, without a context.  An opening brace
begins a placeholder, which goes on to the next closing brace, unless another opening brace
follows; that brace and every other unit are copied.  A template is complete if no placeholder
stays open at its end.  Every template can be read in this way, complete or not
(`exists_hasPieces`).

* The message of a complete template is that of its pieces, one after the other
  (`HasPieces.render_eq`).  The pieces are found before any value is looked up, so a value that
  has braces in it is shown like any other.
* There is a message unless a name in the template leads to a value without a text
  (`render_eq_none_iff`).
* A complete template can stand in front of any text (`HasPieces.append`): the unit behind it
  cannot change how its last piece was read.

Main statement: `Template.render_compositional`.
-/

namespace SceneTokens.Template

open CodeUnit

/-! ## Pieces -/

/-- What a template is made of. -/
inductive Piece
  /-- A unit that is copied. -/
  | unit (u : CodeUnit)
  /-- A name between braces. -/
  | placeholder (name : Text)

/-- The text of a piece in a message, if it has one. -/
def Piece.text (context : Context) : Piece → Option Text
  | .unit u => some [u]
  | .placeholder name => fill context name

/-- How a template ends: outside all placeholders, or inside one. -/
inductive Ending
  | closed
  | unclosed

/-- The pieces of a template, from left to right, as far as they are closed. -/
inductive HasPieces : Text → List Piece → Ending → Prop
  | nil : HasPieces [] [] .closed
  | unclosed {name : Text} (hopen : name.head? ≠ some openBrace) (hclose : closeBrace ∉ name) :
      HasPieces (openBrace :: name) [] .unclosed
  | copied {u : CodeUnit} {rest : Text} {pieces : List Piece} {ending : Ending}
      (hu : u ≠ openBrace) (h : HasPieces rest pieces ending) :
      HasPieces (u :: rest) (.unit u :: pieces) ending
  | doubled {rest : Text} {pieces : List Piece} {ending : Ending}
      (h : HasPieces (openBrace :: rest) pieces ending) :
      HasPieces (openBrace :: openBrace :: rest) (.unit openBrace :: pieces) ending
  | placeholder {name rest : Text} {pieces : List Piece} {ending : Ending}
      (hopen : name.head? ≠ some openBrace) (hclose : closeBrace ∉ name)
      (h : HasPieces rest pieces ending) :
      HasPieces (openBrace :: (name ++ closeBrace :: rest)) (.placeholder name :: pieces) ending

/-- Every placeholder that is opened in the template is closed. -/
def Complete (t : Text) : Prop := ∃ pieces, HasPieces t pieces .closed

/-- A placeholder of the template has this name. -/
def Mentions (t name : Text) : Prop :=
  ∃ pieces ending, HasPieces t pieces ending ∧ .placeholder name ∈ pieces

theorem exists_hasPieces (t : Text) : ∃ pieces ending, HasPieces t pieces ending := by
  -- A placeholder takes many units at once, so the induction is on the length.
  induction hlength : t.length using Nat.strongRecOn generalizing t with
  | ind n ih =>
    subst hlength
    cases t with
    | nil => exact ⟨_, _, .nil⟩
    | cons u rest =>
      by_cases hu : u = openBrace
      · subst hu
        by_cases hopen : rest.head? = some openBrace
        · obtain ⟨pieces, ending, h⟩ := ih rest.length (by simp) rest rfl
          obtain ⟨more, rfl⟩ := List.head?_eq_some_iff.1 hopen
          exact ⟨_, _, .doubled h⟩
        by_cases hclose : closeBrace ∈ rest
        · obtain ⟨name, more, rfl, hname⟩ := List.eq_append_cons_of_mem hclose
          obtain ⟨pieces, ending, h⟩ := ih more.length (by simp; omega) more rfl
          refine ⟨_, _, .placeholder ?_ hname h⟩
          cases name with
          | nil => simp
          | cons v name => exact hopen
        · exact ⟨_, _, .unclosed hopen hclose⟩
      · obtain ⟨pieces, ending, h⟩ := ih rest.length (by simp) rest rfl
        exact ⟨_, _, .copied hu h⟩

theorem HasPieces.ending_eq {t : Text} {pieces : List Piece} {ending : Ending}
    (h : HasPieces t pieces ending) (hopen : ¬Complete t) : ending = .unclosed := by
  cases ending with
  | closed => exact absurd ⟨pieces, h⟩ hopen
  | unclosed => rfl

/-- A complete template can stand in front of any text. -/
theorem HasPieces.append {t u : Text} {pieces more : List Piece} {ending : Ending}
    (h : HasPieces t pieces .closed) (hu : HasPieces u more ending) :
    HasPieces (t ++ u) (pieces ++ more) ending := by
  generalize hclosed : Ending.closed = own at h
  induction h with
  | nil => exact hu
  | unclosed => cases hclosed
  | copied hne _ ih => exact .copied hne (ih hclosed)
  | doubled _ ih =>
    -- The second brace is in the template itself, so nothing behind it matters here.
    exact .doubled (ih hclosed)
  | placeholder hopen hclose _ ih =>
    rw [List.cons_append, List.append_assoc]
    exact .placeholder hopen hclose (ih hclosed)

theorem HasPieces.plain {t : Text} (h : openBrace ∉ t) : HasPieces t (t.map .unit) .closed := by
  induction t with
  | nil => exact .nil
  | cons u t ih =>
    rw [List.mem_cons, not_or] at h
    exact .copied (Ne.symm h.1) (ih h.2)

/-! ## Placeholders -/

section

variable {context : Context} {name : Text}

theorem fill_of_own? {value : Value} (h : context.own? name = some value) :
    fill context name = value.display := by
  rw [fill, Context.get?_of_own? h]
  rfl

theorem fill_of_no_entry (h : context.own? name = none) :
    fill context name = some ((Context.inherited? name).getD []) := by
  rw [fill, Context.get?_of_no_entry h]
  cases Context.inherited? name <;> rfl

theorem fill_eq_none_iff :
    fill context name = none ↔ ∃ value, context.own? name = some value ∧ value.Textless := by
  cases hentry : context.own? name with
  | none => simp [fill_of_no_entry hentry]
  | some value => simp [fill_of_own? hentry, Value.display_eq_none_iff]

end

/-! ## Expansion, piece by piece -/

section

variable (context : Context)

theorem expand_copied {u : CodeUnit} (hu : u ≠ openBrace) (rest : Text) :
    expand context none (u :: rest) = (expand context none rest).behind (some [u]) := by
  rw [expand, if_neg (by simp [hu])]

theorem expand_doubled (rest : Text) :
    expand context none (openBrace :: openBrace :: rest) =
      (expand context none (openBrace :: rest)).behind (some [openBrace]) := by
  rw [expand, if_neg (by simp)]

/-- An opening brace begins a name, unless another one follows. -/
theorem expand_opening {rest : Text} (hopen : rest.head? ≠ some openBrace) :
    expand context none (openBrace :: rest) = expand context (some []) rest := by
  rw [expand, if_pos (by simpa using hopen)]

/-- A name goes on to the closing brace. -/
theorem expand_name {name : Text} (h : closeBrace ∉ name) (start rest : Text) :
    expand context (some start) (name ++ closeBrace :: rest) =
      (expand context none rest).behind (fill context (start.reverse ++ name)) := by
  induction name generalizing start with
  | nil => simp [expand]
  | cons u name ih =>
    rw [List.mem_cons, not_or] at h
    obtain ⟨hu, hname⟩ := h
    rw [List.cons_append, expand, if_neg (by simpa using Ne.symm hu), ih hname]
    simp

theorem expand_unclosed {name : Text} (h : closeBrace ∉ name) (start : Text) :
    expand context (some start) name = .unclosed := by
  induction name generalizing start with
  | nil => rfl
  | cons u name ih =>
    rw [List.mem_cons, not_or] at h
    obtain ⟨hu, hname⟩ := h
    rw [expand, if_neg (by simpa using Ne.symm hu), ih hname]

theorem expand_placeholder {name : Text} (hopen : name.head? ≠ some openBrace)
    (hclose : closeBrace ∉ name) (rest : Text) :
    expand context none (openBrace :: (name ++ closeBrace :: rest)) =
      (expand context none rest).behind (fill context name) := by
  have hbrace : (name ++ closeBrace :: rest).head? ≠ some openBrace := by
    cases name with
    | nil => simpa using (by decide : closeBrace ≠ openBrace)
    | cons u name => exact hopen
  rw [expand_opening context hbrace, expand_name context hclose]
  rfl

/-- The expansion of a template with an ending, from the texts of its pieces if all have one. -/
def Ending.expansion : Ending → Option (List Text) → Expansion
  | _, none => .withoutText
  | .closed, some texts => .filled texts.flatten
  | .unclosed, some _ => .unclosed

theorem Ending.expansion_cons (ending : Ending) (piece : Piece) (pieces : List Piece) :
    (ending.expansion (pieces.mapM (Piece.text context))).behind (piece.text context) =
      ending.expansion ((piece :: pieces).mapM (Piece.text context)) := by
  rw [List.mapM_cons]
  cases piece.text context with
  | none => rfl
  | some shown =>
    cases pieces.mapM (Piece.text context) with
    | none => rfl
    | some texts => cases ending <;> rfl

variable {t : Text} {pieces : List Piece} {ending : Ending}

theorem HasPieces.expand_eq (h : HasPieces t pieces ending) :
    expand context none t = ending.expansion (pieces.mapM (Piece.text context)) := by
  induction h with
  | nil => rfl
  | unclosed hopen hclose =>
    rw [expand_opening context hopen, expand_unclosed context hclose]
    rfl
  | copied hu _ ih => rw [expand_copied context hu, ih, ← Ending.expansion_cons, Piece.text]
  | doubled _ ih => rw [expand_doubled, ih, ← Ending.expansion_cons, Piece.text]
  | placeholder hopen hclose _ ih =>
    rw [expand_placeholder context hopen hclose, ih, ← Ending.expansion_cons, Piece.text]

/-! ## Messages -/

/-- The message of a template with an ending, from the texts of its pieces. -/
def Ending.message (t : Text) (texts : List Text) : Ending → Text
  | .closed => texts.flatten
  | .unclosed => t

/-- The message of a template is that of its pieces, if all of them have a text. -/
theorem HasPieces.render_eq (h : HasPieces t pieces ending) :
    render t context =
      (pieces.mapM (Piece.text context)).map fun texts => ending.message t texts := by
  rw [render, h.expand_eq]
  cases pieces.mapM (Piece.text context) with
  | none => rfl
  | some texts => cases ending <;> rfl

end

/-! ## Complete templates -/

theorem mapM_eq_none_iff {α β : Type} {f : α → Option β} {l : List α} :
    l.mapM f = none ↔ ∃ a ∈ l, f a = none := by
  induction l with
  | nil => simp
  | cons a l ih =>
    rw [List.mapM_cons]
    cases hfirst : f a with
    | none => simp [hfirst]
    | some b =>
      have hrest : (∃ c ∈ a :: l, f c = none) ↔ l.mapM f = none := by simp [hfirst, ih]
      rw [hrest]
      cases l.mapM f <;> simp

/-- Without entries every placeholder has a text, so that of an incomplete template is open. -/
theorem complete_iff_expand_nil {t : Text} : Complete t ↔ expand [] none t ≠ .unclosed := by
  have htext : ∀ pieces : List Piece, (pieces.mapM (Piece.text [])).isSome = true := by
    intro pieces
    rw [Option.isSome_iff_ne_none, ne_eq, mapM_eq_none_iff]
    rintro ⟨piece, -, hnone⟩
    cases piece with
    | unit u => cases hnone
    | placeholder name =>
      obtain ⟨value, hvalue, -⟩ := fill_eq_none_iff.1 hnone
      cases hvalue
  constructor
  · rintro ⟨pieces, h⟩
    obtain ⟨texts, htexts⟩ := Option.isSome_iff_exists.1 (htext pieces)
    rw [h.expand_eq, htexts]
    nofun
  · intro hclosed
    obtain ⟨pieces, ending, h⟩ := exists_hasPieces t
    obtain ⟨texts, htexts⟩ := Option.isSome_iff_exists.1 (htext pieces)
    cases ending with
    | closed => exact ⟨pieces, h⟩
    | unclosed =>
      rw [h.expand_eq, htexts] at hclosed
      exact absurd rfl hclosed

instance : DecidablePred Complete := fun _ => decidable_of_iff _ complete_iff_expand_nil.symm

/-! ## Messages and their parts -/

section

variable (context : Context)

/-- A template has a message unless one of its names leads to a value without a text. -/
theorem render_eq_none_iff {t : Text} :
    render t context = none ↔
      ∃ name value, Mentions t name ∧ context.own? name = some value ∧ value.Textless := by
  have hpiece : ∀ piece : Piece, piece.text context = none ↔
      ∃ name value, piece = .placeholder name ∧ context.own? name = some value ∧
        value.Textless := by
    intro piece
    cases piece with
    | unit u => simp [Piece.text]
    | placeholder name => simp [Piece.text, fill_eq_none_iff]
  constructor
  · intro hnone
    obtain ⟨pieces, ending, h⟩ := exists_hasPieces t
    rw [h.render_eq, Option.map_eq_none_iff, mapM_eq_none_iff] at hnone
    obtain ⟨piece, hmem, htext⟩ := hnone
    obtain ⟨name, value, rfl, hvalue⟩ := (hpiece piece).1 htext
    exact ⟨name, value, ⟨pieces, ending, h, hmem⟩, hvalue⟩
  · rintro ⟨name, value, ⟨pieces, ending, h, hmem⟩, hvalue⟩
    rw [h.render_eq, Option.map_eq_none_iff, mapM_eq_none_iff]
    exact ⟨_, hmem, (hpiece _).2 ⟨name, value, rfl, hvalue⟩⟩

theorem eq_of_render_of_not_complete {t message : Text} (h : ¬Complete t)
    (hmessage : render t context = some message) : message = t := by
  obtain ⟨pieces, ending, hpieces⟩ := exists_hasPieces t
  rw [hpieces.render_eq, hpieces.ending_eq h] at hmessage
  obtain ⟨_, -, rfl⟩ := Option.map_eq_some_iff.1 hmessage
  rfl

theorem render_append {t u : Text} (ht : Complete t) (hu : Complete u) :
    render (t ++ u) context =
      (render t context).bind fun first => (render u context).map fun second =>
        first ++ second := by
  obtain ⟨pieces, hpieces⟩ := ht
  obtain ⟨more, hmore⟩ := hu
  rw [(hpieces.append hmore).render_eq, List.mapM_append, hpieces.render_eq, hmore.render_eq]
  cases pieces.mapM (Piece.text context) with
  | none => rfl
  | some texts =>
    cases more.mapM (Piece.text context) with
    | none => rfl
    | some others => simp [Ending.message]

theorem render_append_of_not_complete {t u : Text} (ht : Complete t) (hu : ¬Complete u) :
    render (t ++ u) context =
      (render t context).bind fun _ => (render u context).map fun _ => t ++ u := by
  obtain ⟨pieces, hpieces⟩ := ht
  obtain ⟨more, ending, hmore⟩ := exists_hasPieces u
  rw [hmore.ending_eq hu] at hmore
  rw [(hpieces.append hmore).render_eq, List.mapM_append, hpieces.render_eq, hmore.render_eq]
  cases pieces.mapM (Piece.text context) with
  | none => rfl
  | some texts =>
    cases more.mapM (Piece.text context) with
    | none => rfl
    | some others => rfl

theorem render_plain {t : Text} (h : openBrace ∉ t) : render t context = some t := by
  have htexts : (t.map Piece.unit).mapM (Piece.text context) = some (t.map ([·])) := by
    induction t with
    | nil => rfl
    | cons u t ih =>
      rw [List.mem_cons, not_or] at h
      rw [List.map_cons, List.mapM_cons, ih h.2]
      rfl
  rw [(HasPieces.plain h).render_eq, htexts]
  simp [Ending.message, ← List.flatMap_def]

theorem render_placeholder {name : Text} (hopen : name.head? ≠ some openBrace)
    (hclose : closeBrace ∉ name) :
    render (openBrace :: (name ++ [closeBrace])) context = fill context name := by
  rw [(HasPieces.placeholder hopen hclose .nil).render_eq, List.mapM_cons, Piece.text]
  cases fill context name <;> simp [Ending.message]

end

/-- A template that ends with its only placeholder, and a context with its value alone. -/
theorem render_singleton {t name : Text} (ht : openBrace ∉ t)
    (hopen : name.head? ≠ some openBrace) (hclose : closeBrace ∉ name) (value : Text) :
    render (t ++ openBrace :: (name ++ [closeBrace])) [(name, .text value)] =
      some (t ++ value) := by
  have hown : Context.own? [(name, .text value)] name = some (.text value) := by
    simp [Context.own?]
  have hfill : fill [(name, .text value)] name = some value := by
    rw [fill_of_own? hown, Value.display]
  rw [render_append _ ⟨_, .plain ht⟩ ⟨_, .placeholder hopen hclose .nil⟩, render_plain _ ht,
    render_placeholder _ hopen hclose, hfill]
  rfl

/-- The message of a template is put together from those of its parts.

* There is none exactly if a name in the template leads to a value without a text.
* A template in which a placeholder stays open has no other message than itself.
* A complete template and what follows it have their messages one after the other, unless a
  placeholder stays open in what follows; then nothing is filled in.
* Text without an opening brace is copied.
* A placeholder stands for the text of the value of its name, as it is.  Without such an entry it
  stands for nothing, except for the names of inherited members, which are shown. -/
theorem render_compositional (context : Context) :
    (∀ t, render t context = none ↔
      ∃ name value, Mentions t name ∧ context.own? name = some value ∧ value.Textless) ∧
    (∀ t message, ¬Complete t → render t context = some message → message = t) ∧
    (∀ t, Complete t → ∀ u,
      (Complete u → render (t ++ u) context =
        (render t context).bind fun first => (render u context).map fun second =>
          first ++ second) ∧
      (¬Complete u → render (t ++ u) context =
        (render t context).bind fun _ => (render u context).map fun _ => t ++ u)) ∧
    (∀ t, openBrace ∉ t → render t context = some t) ∧
    ∀ name, closeBrace ∉ name → name.head? ≠ some openBrace →
      (∀ value, context.own? name = some value → ∀ shown,
        render (openBrace :: (name ++ [closeBrace])) context = some shown ↔
          value.ShownAs shown) ∧
      (context.own? name = none →
        ((∀ shown, ¬Context.Inherits name shown) →
          render (openBrace :: (name ++ [closeBrace])) context = some []) ∧
        ∀ shown, Context.Inherits name shown →
          render (openBrace :: (name ++ [closeBrace])) context = some shown ∧ shown ≠ []) := by
  refine ⟨fun t => render_eq_none_iff context,
    fun t message => eq_of_render_of_not_complete context,
    fun t ht u => ⟨render_append context ht, render_append_of_not_complete context ht⟩,
    fun t => render_plain context, fun name hclose hopen => ?_⟩
  rw [render_placeholder context hopen hclose]
  refine ⟨fun value hvalue shown => ?_, fun hnone => ⟨fun hown => ?_, fun shown hshown => ?_⟩⟩
  · rw [fill_of_own? hvalue, Value.display_eq_some_iff]
  · have hinherited : Context.inherited? name = none :=
      Option.eq_none_iff_forall_ne_some.2 fun shown h => hown shown (Context.inherits_iff.2 h)
    rw [fill_of_no_entry hnone, hinherited]
    rfl
  · rw [fill_of_no_entry hnone, Context.inherits_iff.1 hshown]
    exact ⟨rfl, hshown.ne_nil⟩

/-- A value that has the form of a placeholder itself, behind a doubled brace and in front of a
placeholder that is filled in or stays open; a name that leads to an inherited member, one that
leads nowhere, and one that leads to a value without a text. -/
theorem render_compositional_braces_in_value :
    let context : Context :=
      [("a", .text "\x7bb\x7d"), ("b", .text "x"), ("c", .list [.map [("toString", .null)]])]
    let first : Text := "\x7b\x7ba\x7d, "
    let second : Text := "\x7bb\x7d"
    let unclosed : Text := "\x7bb"
    let textless : Text := "\x7b\x7bc\x7d"
    Complete first ∧ Complete second ∧ ¬Complete unclosed ∧
      render (first ++ second) context = some "\x7b\x7bb\x7d, x" ∧
      render (first ++ unclosed) context = some (first ++ unclosed) ∧
      render unclosed context = some unclosed ∧
      (openBrace ∉ Text.ofString "a\x7d" ∧ render "a\x7d" context = some "a\x7d") ∧
      (∀ name ∈ ([[], "a", "valueOf"] : List Text),
        closeBrace ∉ name ∧ name.head? ≠ some openBrace) ∧
      (context.own? "a" = some (.text second) ∧ render "\x7ba\x7d" context = some second) ∧
      (context.own? [] = none ∧ (∀ shown, ¬Context.Inherits [] shown) ∧
        render "\x7b\x7d" context = some []) ∧
      (context.own? "valueOf" = none ∧
        render "\x7bvalueOf\x7d" context =
          some "function valueOf() \x7b [native code] \x7d") ∧
      render textless context = none ∧
        ∃ name value, Mentions textless name ∧ context.own? name = some value ∧
          value.Textless := by
  intro context first second unclosed textless
  have hfirst : Complete first := by decide +kernel
  have hsecond : Complete second := by decide +kernel
  have hunclosed : ¬Complete unclosed := by decide +kernel
  have hplain : openBrace ∉ Text.ofString "a\x7d" := by decide +kernel
  have hnames : ∀ name ∈ ([[], "a", "valueOf"] : List Text),
      closeBrace ∉ name ∧ name.head? ≠ some openBrace := by decide +kernel
  have htextless : render textless context = none := by decide +kernel
  have hempty : ∀ shown, ¬Context.Inherits [] shown := by
    have hnone : Context.inherited? [] = none := by decide +kernel
    intro shown h
    rw [Context.inherits_iff, hnone] at h
    cases h
  have hvalueOf : Context.Inherits "valueOf" "function valueOf() \x7b [native code] \x7d" :=
    Context.inherits_iff.2 (by decide +kernel)
  obtain ⟨hnone, hself, happend, hcopied, hplaceholder⟩ := render_compositional context
  have hplaced : ∀ name ∈ ([[], "a", "valueOf"] : List Text), _ := fun name hname =>
    hplaceholder name (hnames name hname).1 (hnames name hname).2
  refine ⟨hfirst, hsecond, hunclosed, ?_, ?_, ?_, ⟨hplain, hcopied _ hplain⟩, hnames,
    ⟨rfl, ?_⟩, ⟨rfl, hempty, ?_⟩, ⟨rfl, ?_⟩, htextless, (hnone textless).1 htextless⟩
  · rw [(happend first hfirst second).1 hsecond]
    decide +kernel
  · rw [(happend first hfirst unclosed).2 hunclosed]
    decide +kernel
  · have hmessage : (render unclosed context).isSome = true := by decide +kernel
    obtain ⟨message, hmessage⟩ := Option.isSome_iff_exists.1 hmessage
    rw [hmessage, hself unclosed message hunclosed hmessage]
  · exact ((hplaced (Text.ofString "a") (by simp)).1 (.text second) rfl second).2 (.text second)
  · exact ((hplaced [] (by simp)).2 rfl).1 hempty
  · exact (((hplaced (Text.ofString "valueOf") (by simp)).2 rfl).2 _ hvalueOf).1

/-- A placeholder whose name has no entry stands for an inherited member, not for nothing. -/
theorem render_missing_entry_inherited :
    Context.own? [] "toString" = none ∧ Complete "\x7btoString\x7d" ∧
      render "\x7btoString\x7d" [] = some "function toString() \x7b [native code] \x7d" ∧
      render "\x7btoString\x7d" [] ≠ some [] := by
  decide +kernel

end SceneTokens.Template
