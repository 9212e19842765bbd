import Mathlib.Algebra.Order.Field.Rat
import SceneTokens.Proofs.Values
import SceneTokens.Settings

/-!
# What a configuration says

`Value.Configures` says which values are configurations, and of which settings: a null, or a
mapping with no keys but the known ones and an entry of the right kind under each of them.  An
entry that is absent or null leaves its setting at the default; every other entry is the
setting.  A count of lines is a number whose value is a natural, however it is represented
(`Number.toNat?_eq_some_iff`).

Two more things can happen.  A tagged value without keys is taken for an empty mapping
(`Value.IsKeyless`).  A format that has no text cannot be quoted in a message, and then the
message is about that alone (`Value.HidesFormat`).

The three settings are checked alike, each by its own kind of value (`Settings.given_iff`).  Keys
are visited in an order of their own, but all of them are (`Settings.mem_visitingOrder`), and they
are checked before any entry is.

Main statement: `Settings.ofText_exact`.
-/

namespace SceneTokens

/-! ## Numbers -/

namespace Number

/-- The rational that a number is, if it is finite. -/
def rational? : Number → Option ℚ
  | .finite negative significand exponent =>
    some ((if negative then -1 else 1) * significand * 2 ^ exponent)
  | .nan | .infinite _ => none

theorem mul_zpow_eq_natCast_iff {m k : Nat} {e : Int} :
    (m : ℚ) * 2 ^ e = k ↔
      if 0 ≤ e then m * pow2 e.toNat = k
      else m % pow2 (-e).toNat = 0 ∧ m / pow2 (-e).toNat = k := by
  unfold pow2
  split
  · rename_i h
    obtain ⟨n, rfl⟩ := Int.eq_ofNat_of_zero_le h
    rw [zpow_natCast, Int.toNat_natCast]
    exact_mod_cast Iff.rfl
  · rename_i h
    -- A negative exponent divides, and the value is a natural exactly if nothing is left over.
    obtain ⟨n, rfl⟩ : ∃ n : Nat, e = -n := ⟨(-e).toNat, by omega⟩
    have hpos : (2 : ℚ) ^ n ≠ 0 := pow_ne_zero n two_ne_zero
    rw [zpow_neg, zpow_natCast, neg_neg, Int.toNat_natCast, mul_inv_eq_iff_eq_mul₀ hpos]
    have hcast : (m : ℚ) = k * 2 ^ n ↔ m = k * 2 ^ n := by exact_mod_cast Iff.rfl
    rw [hcast]
    constructor
    · rintro rfl
      exact ⟨Nat.mul_mod_left _ _, Nat.mul_div_cancel _ (Nat.two_pow_pos n)⟩
    · rintro ⟨hmod, hdiv⟩
      rw [← hdiv]
      exact (Nat.div_mul_cancel (Nat.dvd_of_mod_eq_zero hmod)).symm

theorem toNat?_of_negative {m : Nat} (hm : m ≠ 0) (e : Int) :
    (finite true m e).toNat? = none := by
  simp [toNat?, hm]

theorem toNat?_of_not_negative {negative : Bool} {m : Nat} (h : negative = true → m = 0)
    (e : Int) :
    (finite negative m e).toNat? =
      if 0 ≤ e then some (m * pow2 e.toNat)
      else if m % pow2 (-e).toNat == 0 then some (m / pow2 (-e).toNat)
      else none := by
  cases negative with
  | true => simp [toNat?, h rfl]
  | false => simp [toNat?]

/-- The naturals among the numbers are those whose value is one. -/
theorem toNat?_eq_some_iff {n : Number} {k : Nat} :
    n.toNat? = some k ↔ n.rational? = some (k : ℚ) := by
  cases n with
  | nan => simp [toNat?, rational?]
  | infinite negative => simp [toNat?, rational?]
  | finite negative m e =>
    rw [rational?, Option.some.injEq]
    by_cases hnegative : negative = true ∧ m ≠ 0
    · obtain ⟨rfl, hm⟩ := hnegative
      have hpos : (0 : ℚ) < m * 2 ^ e :=
        mul_pos (Nat.cast_pos.2 (Nat.pos_of_ne_zero hm)) (zpow_pos two_pos e)
      have hk : (0 : ℚ) ≤ k := Nat.cast_nonneg k
      rw [toNat?_of_negative hm, if_pos rfl, neg_one_mul, neg_mul]
      exact iff_of_false nofun (ne_of_lt (lt_of_lt_of_le (neg_neg_of_pos hpos) hk))
    · have hzero : negative = true → m = 0 := by simpa using hnegative
      have hvalue : (if negative then (-1 : ℚ) else 1) * m = m := by
        cases negative with
        | true => simp [hzero rfl]
        | false => simp
      rw [toNat?_of_not_negative hzero, hvalue, mul_zpow_eq_natCast_iff]
      split
      · exact Option.some_inj
      · simp only [beq_iff_eq, Option.ite_none_right_eq_some, Option.some.injEq]

end Number

/-! ## Configurations -/

namespace Value

/-- A value that names a format. -/
def IsFormat (value : Value) (format : OutputFormat) : Prop := value = .text format.name

/-- A value that turns something on or off. -/
def IsSwitch (value : Value) (on : Bool) : Prop := value = .bool on

/-- A number that counts up to ten lines. -/
def IsCount (value : Value) (lines : Int) : Prop :=
  0 ≤ lines ∧ lines ≤ 10 ∧ ∃ n, value = .number n ∧ n.rational? = some (lines : ℚ)

end Value

/-- The entry of a key tells what a setting is.  Without one, or with a null, it is the
default. -/
def Settings.Given {α : Type} (entries : Context) (key : Text) (reads : Value → α → Prop)
    (default setting : α) : Prop :=
  (entries.own? key = none ∨ entries.own? key = some .null) ∧ setting = default ∨
    ∃ value, entries.own? key = some value ∧ reads value setting

/-- The keys that a configuration may have. -/
def Text.IsSettingKey (key : Text) : Prop :=
  key = Text.ofString "format" ∨ key = Text.ofString "includeComments" ∨
    key = Text.ofString "contextLines"

/-- A value is a configuration of some settings. -/
inductive Value.Configures : Value → Settings → Prop
  | empty : Configures .null ⟨.human, true, 2⟩
  | mapping {entries : Context} {format : OutputFormat} {includeComments : Bool}
      {contextLines : Int}
      (hkeys : ∀ key ∈ entries.map (·.1), key.IsSettingKey)
      (hformat : Settings.Given entries "format" IsFormat .human format)
      (hcomments : Settings.Given entries "includeComments" IsSwitch true includeComments)
      (hlines : Settings.Given entries "contextLines" IsCount 2 contextLines) :
      Configures (.map entries) ⟨format, includeComments, contextLines⟩

namespace Value

/-- A tagged value without any keys. -/
def IsKeyless (value : Value) : Prop := ∃ object : Tagged, value = .tagged object ∧ object.keys = []

/-- A value gives settings: it is a configuration of them, or it is tagged and has no keys and
they are the default ones. -/
def Gives (value : Value) (settings : Settings) : Prop :=
  value.Configures settings ∨ value.IsKeyless ∧ settings = ⟨.human, true, 2⟩

/-- A mapping in which nothing is wrong with the keys, but the format has no text. -/
def HidesFormat (value : Value) : Prop :=
  ∃ entries format, value = .map entries ∧ (∀ key ∈ entries.map (·.1), key.IsSettingKey) ∧
    Context.own? entries "format" = some format ∧ format.Textless

theorem not_isKeyless_map (entries : Context) : ¬(map entries).IsKeyless := by
  rintro ⟨_, ⟨⟩, -⟩

end Value

namespace Settings

variable {entries : Context}

/-! ## Entries -/

/-- Nothing is inherited under the key of a setting. -/
theorem get?_of_isSettingKey {key : Text} (h : key.IsSettingKey) :
    entries.get? key = (entries.own? key).map .entry := by
  have hinherited : Context.inherited? key = none := by
    rcases h with rfl | rfl | rfl <;> decide +kernel
  rw [Context.get?, hinherited, Option.map_none, Option.or_none]

/-- An entry that is not null tells what a setting is. -/
theorem given_iff {α : Type} {key : Text} {reads : Value → α → Prop} {default setting : α}
    (hnull : ¬reads .null setting) :
    Given entries key reads default setting ↔
      match given? entries key with
      | none => setting = default
      | some value => reads value setting := by
  cases hentry : entries.own? key with
  | none => simp [Given, given?, hentry]
  | some value =>
    cases value with
    | null => simp [Given, given?, hentry, hnull]
    | bool | number | text | list | map | tagged => simp [Given, given?, hentry]

theorem formatOf_eq_ok_iff {format : OutputFormat} :
    formatOf entries = .ok format ↔ Given entries "format" Value.IsFormat .human format := by
  rw [given_iff nofun, formatOf]
  cases given? entries (Text.ofString "format") with
  | none => simp [default, eq_comm]
  | some value =>
    have hread : value.text?.bind OutputFormat.ofName? = some format ↔ value.IsFormat format := by
      cases value with
      | text t => simp [Value.text?, Value.IsFormat, OutputFormat.ofName?_eq_some_iff]
      | null | bool | number | list | map | tagged => simp [Value.text?, Value.IsFormat]
    dsimp only
    rw [← hread]
    cases value.text?.bind OutputFormat.ofName? <;> cases value.display <;> simp

/-- It cannot be said what is wrong with a format exactly if it has no text. -/
theorem formatOf_eq_formatWithoutText_iff :
    formatOf entries = .error .formatWithoutText ↔
      ∃ format, entries.own? "format" = some format ∧ format.Textless := by
  unfold formatOf given?
  cases entries.own? (Text.ofString "format") with
  | none => simp
  | some value =>
    simp only [Option.some.injEq, exists_eq_left', ← Value.display_eq_none_iff]
    cases value with
    | null => simp [Value.display]
    | text t => cases hname : OutputFormat.ofName? t <;> simp [Value.text?, Value.display, hname]
    | bool | number | list | map | tagged =>
      simp only [Value.text?, Option.bind_none]
      cases Value.display _ <;> simp

theorem commentsOf_eq_ok_iff {included : Bool} :
    commentsOf entries = .ok included ↔
      Given entries "includeComments" Value.IsSwitch true included := by
  rw [given_iff nofun, commentsOf]
  cases given? entries (Text.ofString "includeComments") with
  | none => simp [default, eq_comm]
  | some value => cases value <;> simp [Value.IsSwitch]

theorem isCount_number_iff {n : Number} {lines : Int} :
    Value.IsCount (.number n) lines ↔
      ∃ k : Nat, n.toNat? = some k ∧ k ≤ maxContextLines ∧ lines = k := by
  constructor
  · rintro ⟨hlow, hhigh, _, ⟨⟩, hvalue⟩
    obtain ⟨k, rfl⟩ := Int.eq_ofNat_of_zero_le hlow
    exact ⟨k, Number.toNat?_eq_some_iff.2 hvalue, Int.ofNat_le.1 hhigh, rfl⟩
  · rintro ⟨k, hk, hhigh, rfl⟩
    exact ⟨Int.natCast_nonneg k, Int.ofNat_le.2 hhigh, n, rfl, Number.toNat?_eq_some_iff.1 hk⟩

theorem contextLinesOf_eq_ok_iff {lines : Int} :
    contextLinesOf entries = .ok lines ↔ Given entries "contextLines" Value.IsCount 2 lines := by
  rw [given_iff nofun, contextLinesOf]
  cases given? entries (Text.ofString "contextLines") with
  | none => simp [default, eq_comm]
  | some value =>
    cases value with
    | number n =>
      simp only [isCount_number_iff]
      cases n.toNat? with
      | none => simp
      | some k => by_cases hk : k ≤ maxContextLines <;> simp [hk, eq_comm (a := lines)]
    | null | bool | text | list | map | tagged => simp [Value.IsCount]

/-! ## Keys -/

theorem mem_visitingOrder {key : Text} :
    key ∈ visitingOrder entries ↔ key ∈ entries.map (·.1) := by
  unfold visitingOrder
  dsimp only
  rw [List.mem_append, List.mem_filter, List.mem_map]
  simp only [List.mem_mergeSort, List.mem_filterMap, Option.map_eq_some_iff]
  constructor
  · rintro (⟨_, ⟨key, hkey, n, -, rfl⟩, rfl⟩ | ⟨hkey, -⟩) <;> exact hkey
  · intro hkey
    cases hindex : index? key with
    | none => exact .inr ⟨hkey, rfl⟩
    | some n => exact .inl ⟨(n, key), ⟨key, hkey, n, hindex, rfl⟩, rfl⟩

theorem mem_keys_iff {key : Text} : key ∈ keys ↔ key.IsSettingKey := by
  simp [keys, Text.IsSettingKey]

/-- Either all keys are known, or an unknown one is found. -/
theorem find?_unknown_cases (visited : List Text) :
    (visited.find? (fun key => !keys.contains key) = none ∧
      ∀ key ∈ visited, key.IsSettingKey) ∨
    ∃ key ∈ visited, ¬key.IsSettingKey ∧
      visited.find? (fun key => !keys.contains key) = some key := by
  cases hfound : visited.find? fun key => !keys.contains key with
  | none =>
    refine .inl ⟨rfl, fun key hkey => ?_⟩
    have hknown := List.find?_eq_none.1 hfound key hkey
    simpa [mem_keys_iff] using hknown
  | some key =>
    refine .inr ⟨key, List.mem_of_find?_eq_some hfound, ?_, rfl⟩
    have hunknown := List.find?_some hfound
    simpa [mem_keys_iff] using hunknown

/-! ## Values -/

section

variable {visited : List Text}

theorem ofEntries_of_unknown {key : Text}
    (h : visited.find? (fun key => !keys.contains key) = some key) :
    ofEntries visited entries = .error (.unknownKey key) := by
  unfold ofEntries
  rw [h]

/-- Entries give the settings that each of them gives, if all keys are known. -/
theorem ofEntries_eq_ok_iff {settings : Settings} :
    ofEntries visited entries = .ok settings ↔
      (∀ key ∈ visited, key.IsSettingKey) ∧ formatOf entries = .ok settings.format ∧
        commentsOf entries = .ok settings.includeComments ∧
        contextLinesOf entries = .ok settings.contextLines := by
  rcases find?_unknown_cases visited with ⟨hfound, hkeys⟩ | ⟨key, hkey, hunknown, hfound⟩
  · rw [and_iff_right hkeys, ofEntries, hfound]
    dsimp only
    cases formatOf entries with
    | error e => simp [bind, Except.bind]
    | ok format =>
      cases commentsOf entries with
      | error e => simp [bind, Except.bind]
      | ok included =>
        cases contextLinesOf entries with
        | error e => simp [bind, Except.bind]
        | ok lines =>
          cases settings
          simp [bind, Except.bind, pure, Except.pure]
  · rw [ofEntries_of_unknown hfound]
    exact iff_of_false nofun fun h => hunknown (h.1 key hkey)

theorem commentsOf_ne_formatWithoutText : commentsOf entries ≠ .error .formatWithoutText := by
  unfold commentsOf
  split <;> nofun

theorem contextLinesOf_ne_formatWithoutText :
    contextLinesOf entries ≠ .error .formatWithoutText := by
  unfold contextLinesOf
  split
  · nofun
  · split
    · split <;> nofun
    · nofun
  · nofun

theorem ofEntries_eq_formatWithoutText_iff :
    ofEntries visited entries = .error .formatWithoutText ↔
      (∀ key ∈ visited, key.IsSettingKey) ∧ formatOf entries = .error .formatWithoutText := by
  have hcomments : commentsOf entries ≠ .error .formatWithoutText :=
    commentsOf_ne_formatWithoutText
  have hlines : contextLinesOf entries ≠ .error .formatWithoutText :=
    contextLinesOf_ne_formatWithoutText
  rcases find?_unknown_cases visited with ⟨hfound, hkeys⟩ | ⟨key, hkey, hunknown, hfound⟩
  · rw [and_iff_right hkeys, ofEntries, hfound]
    dsimp only
    cases formatOf entries with
    | error e => simp [bind, Except.bind]
    | ok format =>
      cases hincluded : commentsOf entries with
      | error e => simpa [bind, Except.bind, hincluded] using hcomments
      | ok included =>
        cases hcount : contextLinesOf entries with
        | error e => simpa [bind, Except.bind, hcount] using hlines
        | ok lines => simp [bind, Except.bind, pure, Except.pure]
  · rw [ofEntries_of_unknown hfound]
    exact iff_of_false nofun fun h => hunknown (h.1 key hkey)

end

theorem configures_map_iff {settings : Settings} :
    (Value.map entries).Configures settings ↔
      (∀ key ∈ entries.map (·.1), key.IsSettingKey) ∧
        Given entries "format" Value.IsFormat .human settings.format ∧
        Given entries "includeComments" Value.IsSwitch true settings.includeComments ∧
        Given entries "contextLines" Value.IsCount 2 settings.contextLines := by
  constructor
  · rintro ⟨⟩
    exact ⟨‹_›, ‹_›, ‹_›, ‹_›⟩
  · rintro ⟨hkeys, hformat, hcomments, hlines⟩
    exact .mapping hkeys hformat hcomments hlines

/-- The index of a byte is no key of a setting. -/
theorem isSettingKey_keys_iff (object : Tagged) :
    (∀ key ∈ object.keys, key.IsSettingKey) ↔ object.keys = [] := by
  cases object with
  | date | set | orderedMap => simp [Tagged.keys]
  | bytes count shown =>
    cases count with
    | zero => simp [Tagged.keys]
    | succ count =>
      have hmem : Text.decimal 0 ∈ (Tagged.bytes (count + 1) shown).keys :=
        List.mem_map.2 ⟨0, List.mem_range.2 (Nat.succ_pos count), rfl⟩
      have hindex : ¬(Text.decimal 0).IsSettingKey := by
        unfold Text.IsSettingKey
        decide +kernel
      exact iff_of_false (fun h => hindex (h _ hmem)) (List.ne_nil_of_mem hmem)

/-- A value gives settings as a configuration of them, or because there is nothing in it that
could be wrong. -/
theorem ofValue_eq_ok_iff {value : Value} {settings : Settings} :
    ofValue value = .ok settings ↔ value.Gives settings := by
  cases value with
  | null =>
    constructor
    · intro h
      cases h
      exact .inl .empty
    · rintro (⟨⟨⟩⟩ | ⟨⟨_, ⟨⟩, -⟩, -⟩)
      rfl
  | map entries =>
    rw [ofValue, ofEntries_eq_ok_iff, formatOf_eq_ok_iff, commentsOf_eq_ok_iff,
      contextLinesOf_eq_ok_iff]
    simp only [mem_visitingOrder, ← configures_map_iff]
    constructor
    · exact .inl
    · rintro (h | ⟨⟨_, ⟨⟩, -⟩, -⟩)
      exact h
  | tagged object =>
    rw [ofValue, ofEntries_eq_ok_iff, isSettingKey_keys_iff]
    constructor
    · rintro ⟨hkeys, hformat, hcomments, hlines⟩
      obtain ⟨format, comments, lines⟩ := settings
      cases hformat
      cases hcomments
      cases hlines
      exact .inr ⟨⟨object, rfl, hkeys⟩, rfl⟩
    · rintro (⟨⟨⟩⟩ | ⟨⟨_, ⟨⟩, hkeys⟩, rfl⟩)
      exact ⟨hkeys, rfl, rfl, rfl⟩
  | bool | number | text | list =>
    constructor
    · nofun
    · rintro (⟨⟨⟩⟩ | ⟨⟨_, ⟨⟩, -⟩, -⟩)

theorem ofValue_eq_formatWithoutText_iff {value : Value} :
    ofValue value = .error .formatWithoutText ↔ value.HidesFormat := by
  cases value with
  | map entries =>
    rw [ofValue, ofEntries_eq_formatWithoutText_iff, formatOf_eq_formatWithoutText_iff]
    simp only [mem_visitingOrder]
    constructor
    · rintro ⟨hkeys, format, hformat, htext⟩
      exact ⟨entries, format, rfl, hkeys, hformat, htext⟩
    · rintro ⟨_, format, ⟨⟩, hkeys, hformat, htext⟩
      exact ⟨hkeys, format, hformat, htext⟩
  | tagged object =>
    rw [ofValue, ofEntries_eq_formatWithoutText_iff]
    constructor
    · rintro ⟨-, h⟩
      cases h
    · rintro ⟨_, _, ⟨⟩, -⟩
  | null | bool | number | text | list =>
    constructor
    · nofun
    · rintro ⟨_, _, ⟨⟩, -⟩

/-- A message begins alike for every reason that can be said. -/
theorem message_of_ne {e : SettingsError} (h : e ≠ .formatWithoutText) :
    ∃ reason, e.message = Text.ofString "Invalid configuration: " ++ reason := by
  cases e with
  | formatWithoutText => exact absurd rfl h
  | malformed | notMapping | unknownKey | invalidFormat | invalidComments
  | invalidContextLines => exact ⟨_, rfl⟩

theorem ofText_of_document {document : Text → Option Value} {text : Text} {value : Value}
    (h : document text = some value) : ofText document text = ofValue value := by
  unfold ofText
  rw [h]

theorem ofText_eq_ok_iff {document : Text → Option Value} {text : Text} {settings : Settings} :
    ofText document text = .ok settings ↔
      ∃ value, document text = some value ∧ value.Gives settings := by
  cases h : document text with
  | none =>
    unfold ofText
    rw [h]
    simp
  | some value => simp [ofText_of_document h, ofValue_eq_ok_iff]

/-- What becomes of a configuration text whose value is given.

* It is accepted exactly if its value is a configuration, and gives the settings of that
  configuration, or if its value is tagged and has no keys, and then gives the default ones.
* Every other text is refused with a message that says so, unless its format has no text.
* Such a format is refused with a message that does not say where it comes from.
* A mapping with unknown keys is refused for one of them, whatever else is wrong with it. -/
theorem ofText_exact {document : Text → Option Value} {text : Text} {value : Value}
    (h : document text = some value) :
    (∀ settings, ofText document text = .ok settings ↔
      value.Configures settings ∨ value.IsKeyless ∧ settings = ⟨.human, true, 2⟩) ∧
    ((¬∃ settings, value.Configures settings) → ¬value.IsKeyless → ¬value.HidesFormat →
      ∃ e reason, ofText document text = .error e ∧
        e.message = Text.ofString "Invalid configuration: " ++ reason) ∧
    (value.HidesFormat → ∃ e, ofText document text = .error e ∧
      e.message = Text.ofString "Cannot convert object to primitive value") ∧
    ∀ entries, value = .map entries → (∃ key ∈ entries.map (·.1), ¬key.IsSettingKey) →
      ∃ key ∈ entries.map (·.1), ¬key.IsSettingKey ∧
        ∃ e, ofText document text = .error e ∧
          e.message = Text.ofString "Invalid configuration: " ++
            (Text.ofString "unknown key " ++ key) := by
  rw [ofText_of_document h]
  refine ⟨fun settings => ofValue_eq_ok_iff, ?_, ?_, ?_⟩
  · intro hnone hkeys hshown
    cases hvalue : ofValue value with
    | ok settings =>
      rcases ofValue_eq_ok_iff.1 hvalue with hsettings | ⟨hkeyless, -⟩
      · exact absurd ⟨settings, hsettings⟩ hnone
      · exact absurd hkeyless hkeys
    | error e =>
      have hne : e ≠ .formatWithoutText := by
        rintro rfl
        exact hshown (ofValue_eq_formatWithoutText_iff.1 hvalue)
      obtain ⟨reason, hmessage⟩ := message_of_ne hne
      exact ⟨e, reason, rfl, hmessage⟩
  · intro hhidden
    exact ⟨_, ofValue_eq_formatWithoutText_iff.2 hhidden, rfl⟩
  · rintro entries rfl ⟨other, hother, hunknown⟩
    rcases find?_unknown_cases (visitingOrder entries) with
      ⟨-, hkeys⟩ | ⟨key, hkey, hunknown, hfound⟩
    · exact absurd (hkeys other (mem_visitingOrder.2 hother)) hunknown
    · exact ⟨key, mem_visitingOrder.1 hkey, hunknown, _, ofEntries_of_unknown hfound, rfl⟩

/-- A document with a null among its entries, which keeps the default; one with two mistakes, of
which the unknown key is reported; a set; and a format without a text. -/
theorem ofText_exact_four_documents :
    let sparse : Value := .map [("format", .null), ("includeComments", .bool false),
      ("contextLines", .number (.ofInt 10))]
    let mistaken : Value := .map [("format", .text "xml"), ("colour", .text "red")]
    let hidden : Value := .map [("format", .list [.map [("toString", .text "a")]])]
    let document : Text → Option Value := fun text =>
      if text == "format: ~\nincludeComments: false\ncontextLines: 1e1\n" then some sparse
      else if text == "format: xml\ncolour: red\n" then some mistaken
      else if text == "!!set \x7b\x7d\n" then some (.tagged .set)
      else if text == "format: [\x7btoString: a\x7d]\n" then some hidden
      else none
    (document "format: ~\nincludeComments: false\ncontextLines: 1e1\n" = some sparse ∧
      sparse.Configures ⟨.human, false, 10⟩) ∧
    (document "format: xml\ncolour: red\n" = some mistaken ∧
      ((¬∃ settings, mistaken.Configures settings) ∧ ¬mistaken.IsKeyless ∧
        ¬mistaken.HidesFormat ∧ ∃ e reason,
          ofText document "format: xml\ncolour: red\n" = .error e ∧
            e.message = Text.ofString "Invalid configuration: " ++ reason) ∧
      ofText document "format: xml\ncolour: red\n" = .error (.unknownKey "colour")) ∧
    (document "!!set \x7b\x7d\n" = some (.tagged .set) ∧
      ofText document "!!set \x7b\x7d\n" = .ok ⟨.human, true, 2⟩) ∧
    document "format: [\x7btoString: a\x7d]\n" = some hidden ∧ hidden.HidesFormat ∧ ∃ e,
      ofText document "format: [\x7btoString: a\x7d]\n" = .error e ∧
        e.message = "Cannot convert object to primitive value" := by
  intro sparse mistaken hidden document
  have hsparse : document "format: ~\nincludeComments: false\ncontextLines: 1e1\n" =
      some sparse := rfl
  have hmistaken : document "format: xml\ncolour: red\n" = some mistaken := rfl
  have hset : document "!!set \x7b\x7d\n" = some (.tagged .set) := rfl
  have hhidden : document "format: [\x7btoString: a\x7d]\n" = some hidden := rfl
  have hformat : hidden.HidesFormat :=
    ⟨_, _, rfl, by simp [Text.IsSettingKey], rfl,
      .list (List.mem_singleton_self _) (.map (by simp [Value.textMember]))⟩
  have hcolour : ¬∀ key ∈ ([("format", .text "xml"), ("colour", .text "red")] : Context).map
      (·.1), key.IsSettingKey := by
    unfold Text.IsSettingKey
    decide +kernel
  have hnone : ¬∃ settings, mistaken.Configures settings := by
    rintro ⟨settings, h⟩
    exact hcolour (configures_map_iff.1 h).1
  have hshown : ¬mistaken.HidesFormat := by
    rw [← ofValue_eq_formatWithoutText_iff]
    decide +kernel
  refine ⟨⟨hsparse, ?_⟩, ⟨hmistaken, ⟨hnone, Value.not_isKeyless_map _, hshown,
    (ofText_exact hmistaken).2.1 hnone (Value.not_isKeyless_map _) hshown⟩, by decide +kernel⟩,
    ⟨hset, ?_⟩, hhidden, hformat, (ofText_exact hhidden).2.2.1 hformat⟩
  · have hok := ((ofText_exact hsparse).1 ⟨.human, false, 10⟩).1 (by decide +kernel)
    exact hok.resolve_right fun h => Value.not_isKeyless_map _ h.1
  · exact ((ofText_exact hset).1 _).2 (.inr ⟨⟨.set, rfl, rfl⟩, rfl⟩)

/-- The format of a configuration is a mapping without a text, and the message of the refusal
does not begin like the others. -/
theorem ofText_format_without_text :
    let value : Value := .map [("format", .map [("toString", .text "a")])]
    let document : Text → Option Value := fun text =>
      if text == "format: \x7btoString: a\x7d\n" then some value else none
    document "format: \x7btoString: a\x7d\n" = some value ∧
      (¬∃ settings, value.Configures settings) ∧
      ofText document "format: \x7btoString: a\x7d\n" = .error .formatWithoutText ∧
      SettingsError.formatWithoutText.message = "Cannot convert object to primitive value" ∧
      ¬∃ reason, SettingsError.formatWithoutText.message =
        Text.ofString "Invalid configuration: " ++ reason := by
  intro value document
  refine ⟨rfl, ?_, by decide +kernel, rfl, ?_⟩
  · rintro ⟨settings, h⟩
    have hok : ofValue value = .ok settings := ofValue_eq_ok_iff.2 (.inl h)
    have herror : ofValue value = .error .formatWithoutText := by decide +kernel
    rw [herror] at hok
    cases hok
  · rintro ⟨reason, h⟩
    have hbegins : (Text.ofString "Invalid configuration: ").isPrefixOf
        SettingsError.formatWithoutText.message = true :=
      List.isPrefixOf_iff_prefix.2 ⟨reason, h.symm⟩
    revert hbegins
    decide +kernel

end Settings

end SceneTokens
