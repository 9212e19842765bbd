import SceneTokens.Value

/-!
# Values and their texts

`Value.ShownAs` relates a value to its text (`Value.display_eq_some_iff`).  `Value.Textless` says
which values have none: a mapping whose own entry hides the member that shows it, and a list with
such an item, at any depth (`Value.display_eq_none_iff`).

A name of a context leads to its entry if there is one (`Context.get?_of_own?`), and else to what
is inherited under it.  `Context.Inherits` lists the members that are (`Context.inherits_iff`).
-/

namespace SceneTokens

open CodeUnit

namespace Value

/-! ## The text of a value -/

mutual

/-- A value is shown as a text. -/
inductive ShownAs : Value → Text → Prop
  | null : ShownAs .null "null"
  | true : ShownAs (.bool true) "true"
  | false : ShownAs (.bool false) "false"
  | number (n : Number) : ShownAs (.number n) n.text
  | text (t : Text) : ShownAs (.text t) t
  /-- The items of a list have commas between them. -/
  | list {items : List Value} {shown : List Text} (h : AllShownAs items shown) :
      ShownAs (.list items) ([comma].intercalate shown)
  /-- A mapping is shown without its entries. -/
  | map {entries : Context} (h : textMember ∉ entries.map (·.1)) :
      ShownAs (.map entries) "[object Object]"
  | date (shown : Text) : ShownAs (.tagged (.date shown)) shown
  | set : ShownAs (.tagged .set) "[object Set]"
  | orderedMap : ShownAs (.tagged .orderedMap) "[object Map]"
  | bytes (count : Nat) (shown : Text) : ShownAs (.tagged (.bytes count shown)) shown

/-- The items of a list are shown as texts, one by one.  The text of a null is empty there. -/
inductive AllShownAs : List Value → List Text → Prop
  | nil : AllShownAs [] []
  | null {rest : List Value} {more : List Text} (h : AllShownAs rest more) :
      AllShownAs (.null :: rest) ([] :: more)
  | item {item : Value} {shown : Text} {rest : List Value} {more : List Text}
      (hne : item ≠ .null) (hitem : ShownAs item shown) (hrest : AllShownAs rest more) :
      AllShownAs (item :: rest) (shown :: more)

end

theorem displayItems_cons {item : Value} (hne : item ≠ .null) {rest : List Value} :
    displayItems (item :: rest) =
      item.display.bind fun shown => (displayItems rest).map fun more => shown :: more := by
  rw [displayItems]
  · cases item.display <;> cases displayItems rest <;> rfl
  · exact hne

mutual

theorem shownAs_of_display : (value : Value) → (t : Text) → value.display = some t →
    value.ShownAs t
  | .null, _, h => by
    cases h
    exact .null
  | .bool true, _, h => by
    cases h
    exact .true
  | .bool false, _, h => by
    cases h
    exact .false
  | .number n, _, h => by
    cases h
    exact .number n
  | .text t, _, h => by
    cases h
    exact .text t
  | .list items, _, h => by
    rw [display, Option.map_eq_some_iff] at h
    obtain ⟨shown, hitems, rfl⟩ := h
    exact .list (allShownAs_of_displayItems items shown hitems)
  | .map entries, _, h => by
    rw [display, Option.ite_none_left_eq_some] at h
    obtain ⟨hmember, h⟩ := h
    cases h
    exact .map (by simpa using hmember)
  | .tagged object, _, h => by
    cases h
    cases object with
    | date shown => exact .date shown
    | set => exact .set
    | orderedMap => exact .orderedMap
    | bytes count shown => exact .bytes count shown

theorem allShownAs_of_displayItems : (items : List Value) → (shown : List Text) →
    displayItems items = some shown → AllShownAs items shown
  | [], _, h => by
    cases h
    exact .nil
  | item :: rest, _, h => by
    by_cases hne : item = .null
    · subst hne
      rw [displayItems, Option.map_eq_some_iff] at h
      obtain ⟨more, hrest, rfl⟩ := h
      exact .null (allShownAs_of_displayItems rest more hrest)
    · rw [displayItems_cons hne, Option.bind_eq_some_iff] at h
      obtain ⟨first, hitem, h⟩ := h
      obtain ⟨more, hrest, rfl⟩ := Option.map_eq_some_iff.1 h
      exact .item hne (shownAs_of_display item first hitem)
        (allShownAs_of_displayItems rest more hrest)

end

mutual

theorem ShownAs.display_eq : {value : Value} → {t : Text} → value.ShownAs t →
    value.display = some t
  | _, _, .null | _, _, .true | _, _, .false | _, _, .number _ | _, _, .text _ => rfl
  | _, _, .list h => by rw [display, h.displayItems_eq, Option.map_some]
  | _, _, .map h => by rw [display, if_neg (by simpa using h)]
  | _, _, .date _ | _, _, .set | _, _, .orderedMap | _, _, .bytes _ _ => rfl

theorem AllShownAs.displayItems_eq : {items : List Value} → {shown : List Text} →
    AllShownAs items shown → displayItems items = some shown
  | _, _, .nil => rfl
  | _, _, .null h => by rw [displayItems, h.displayItems_eq, Option.map_some]
  | _, _, .item hne hitem hrest => by
    rw [displayItems_cons hne, hitem.display_eq, hrest.displayItems_eq]
    rfl

end

theorem display_eq_some_iff {value : Value} {t : Text} :
    value.display = some t ↔ value.ShownAs t :=
  ⟨shownAs_of_display value t, ShownAs.display_eq⟩

/-! ## Values without a text -/

/-- A value that has no text. -/
inductive Textless : Value → Prop
  | map {entries : Context} (h : textMember ∈ entries.map (·.1)) : Textless (.map entries)
  | list {items : List Value} {item : Value} (hmem : item ∈ items) (h : Textless item) :
      Textless (.list items)

theorem displayItems_cons_eq_none_iff {item : Value} {rest : List Value} :
    displayItems (item :: rest) = none ↔ item.display = none ∨ displayItems rest = none := by
  by_cases hne : item = .null
  · subst hne
    simp [displayItems, display]
  · rw [displayItems_cons hne]
    cases item.display <;> simp

theorem displayItems_eq_none_iff {items : List Value} :
    displayItems items = none ↔ ∃ item ∈ items, item.display = none := by
  induction items with
  | nil => simp [displayItems]
  | cons item rest ih => simp [displayItems_cons_eq_none_iff, ih]

theorem display_map_eq_none_iff {entries : Context} :
    (map entries).display = none ↔ textMember ∈ entries.map (·.1) := by
  rw [display, ite_eq_left_iff]
  simp

mutual

theorem textless_of_display : (value : Value) → value.display = none → value.Textless
  | .map _, h => .map (display_map_eq_none_iff.1 h)
  | .list items, h => by
    rw [display, Option.map_eq_none_iff] at h
    obtain ⟨item, hmem, hitem⟩ := textless_of_displayItems items h
    exact .list hmem hitem
  | .null, h | .bool _, h | .number _, h | .text _, h | .tagged _, h => by
    simp [display] at h

theorem textless_of_displayItems : (items : List Value) → displayItems items = none →
    ∃ item ∈ items, item.Textless
  | [], h => by simp [displayItems] at h
  | item :: rest, h => by
    rcases displayItems_cons_eq_none_iff.1 h with hitem | hrest
    · exact ⟨item, List.mem_cons_self, textless_of_display item hitem⟩
    · obtain ⟨other, hmem, hother⟩ := textless_of_displayItems rest hrest
      exact ⟨other, List.mem_cons_of_mem item hmem, hother⟩

end

theorem display_eq_none_iff {value : Value} : value.display = none ↔ value.Textless := by
  constructor
  · exact textless_of_display value
  · intro h
    induction h with
    | map h => exact display_map_eq_none_iff.2 h
    | list hmem _ ih =>
      rw [display, Option.map_eq_none_iff, displayItems_eq_none_iff]
      exact ⟨_, hmem, ih⟩

end Value

/-! ## What a name leads to -/

namespace Context

variable {c : Context} {name : Text}

/-- Every context inherits a member with this text under a name. -/
inductive Inherits : Text → Text → Prop
  | function {name : Text} (h : name ∈ inheritedFunctions) :
      Inherits name ("function " ++ name ++ Text.ofString "() \x7b [native code] \x7d")
  | constructor : Inherits "constructor" "function Object() \x7b [native code] \x7d"
  | prototype : Inherits "__proto__" "[object Object]"

theorem inherits_iff {shown : Text} : Inherits name shown ↔ inherited? name = some shown := by
  constructor
  · intro h
    cases h with
    | function h => rw [inherited?, if_pos (List.contains_iff_mem.2 h), functionText]
    | constructor => decide +kernel
    | prototype => decide +kernel
  · intro h
    unfold inherited? at h
    split at h
    · rename_i hmem
      cases h
      exact .function (List.contains_iff_mem.1 hmem)
    split at h
    · rename_i hname
      cases h
      rw [beq_iff_eq.1 hname]
      exact .constructor
    split at h
    · rename_i hname
      cases h
      rw [beq_iff_eq.1 hname]
      exact .prototype
    · cases h

/-- What is inherited has a text that is not empty. -/
theorem Inherits.ne_nil {shown : Text} (h : Inherits name shown) : shown ≠ [] := by
  cases h with
  | function h =>
    have hword : Text.ofString "function " ≠ [] := by decide
    exact List.append_ne_nil_of_left_ne_nil (List.append_ne_nil_of_left_ne_nil hword _) _
  | constructor => decide +kernel
  | prototype => decide +kernel

theorem get?_of_own? {value : Value} (h : c.own? name = some value) :
    c.get? name = some (.entry value) := by
  rw [get?, h, Option.map_some, Option.some_or]

theorem get?_of_no_entry (h : c.own? name = none) :
    c.get? name = (inherited? name).map .inherited := by
  rw [get?, h, Option.map_none, Option.none_or]

end Context

end SceneTokens
