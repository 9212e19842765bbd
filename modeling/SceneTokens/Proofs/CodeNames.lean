import Mathlib.Data.List.Forall2
import Mathlib.Data.List.TakeWhile
import SceneTokens.Report.Explain

/-!
# Names of codes

The documentation of a code is asked for by a text that need not be its identifier.
`ErrorCode.MeantBy` says which texts mean a code: those that spell the identifier, or the part of
it behind `SCN-`, in any letter case and with blanks around it.

A text is read in capitals.  A ligature becomes more than one capital, but no identifier has the
capitals of one side by side, so a text that means a code is compared with the identifier unit by
unit (`ErrorCode.flatMap_capital_eq_iff`).

* `ErrorCode.normalId?_eq_some_id_iff`: the texts from which the identifier is read.
* `ErrorCode.unknown_iff`: all others have no documentation.
-/

namespace SceneTokens

open CodeUnit

/-! ## Blanks around a text -/

namespace Text

variable {p : CodeUnit → Bool}

theorem exists_trim (p : CodeUnit → Bool) (t : Text) :
    ∃ before after, t = before ++ trim p t ++ after ∧ ∀ u ∈ before ++ after, p u = true := by
  have hend : ∀ s : Text, s = trimEnd p s ++ (s.reverse.takeWhile p).reverse := by
    intro s
    rw [trimEnd, ← List.reverse_append, List.takeWhile_append_dropWhile, List.reverse_reverse]
  refine ⟨t.takeWhile p, ((t.dropWhile p).reverse.takeWhile p).reverse, ?_, ?_⟩
  · rw [trim, List.append_assoc, ← hend, List.takeWhile_append_dropWhile]
  · intro u hu
    rcases List.mem_append.1 hu with hu | hu
    · exact List.mem_takeWhile_imp hu
    · exact List.mem_takeWhile_imp (List.mem_reverse.1 hu)

theorem dropWhile_append_of_all {run rest : Text} (hrun : ∀ u ∈ run, p u = true)
    (hrest : ∀ u ∈ rest.head?, p u = false) : (run ++ rest).dropWhile p = rest := by
  rw [List.dropWhile_append_of_pos hrun]
  cases rest with
  | nil => rfl
  | cons u rest => rw [List.dropWhile_cons_of_neg (by simp [hrest u rfl])]

theorem trim_append {before body after : Text} (h : ∀ u ∈ before ++ after, p u = true)
    (hne : body ≠ []) (hbody : ∀ u ∈ body, p u = false) :
    trim p (before ++ body ++ after) = body := by
  obtain ⟨hbefore, hafter⟩ := List.forall_mem_append.1 h
  obtain ⟨u, more, rfl⟩ := List.exists_cons_of_ne_nil hne
  have hhead : ∀ v ∈ (u :: more ++ after).head?, p v = false := by
    rintro v ⟨⟩
    exact hbody u List.mem_cons_self
  have hlast : ∀ v ∈ (u :: more).reverse.head?, p v = false := fun v hv =>
    hbody v (List.mem_reverse.1 (List.mem_of_mem_head? hv))
  rw [trim, List.append_assoc, dropWhile_append_of_all hbefore hhead, trimEnd,
    List.reverse_append, dropWhile_append_of_all (by simpa using hafter) hlast,
    List.reverse_reverse]

end Text

/-! ## Letters of either case -/

/-- A unit stands for a unit of an identifier: it is the same, or its small letter, or the long s
for an s. -/
def CodeUnit.Spells (u v : CodeUnit) : Prop :=
  u = v ∨ isLetter v = true ∧ u = v + 0x20 ∨ u = 0x17F ∧ v = 0x53

/-- A unit of the kind that identifiers are made of: a hyphen, a digit or a capital letter but
I. -/
def CodeUnit.IsIdUnit (v : CodeUnit) : Prop :=
  v = hyphen ∨ isDigit v = true ∨ 0x41 ≤ v ∧ v ≤ 0x5A ∧ v ≠ 0x49

instance : DecidablePred CodeUnit.IsIdUnit := fun v =>
  inferInstanceAs (Decidable (v = hyphen ∨ isDigit v = true ∨ 0x41 ≤ v ∧ v ≤ 0x5A ∧ v ≠ 0x49))

theorem CodeUnit.IsIdUnit.le {v : CodeUnit} (h : v.IsIdUnit) : v ≤ 0x5A := by
  rcases h with rfl | hdigit | ⟨-, hletter, -⟩
  · decide
  · simp only [isDigit, Bool.and_eq_true, decide_eq_true_eq, UInt16.le_iff_toNat_le,
      UInt16.reduceToNat] at hdigit ⊢
    omega
  · exact hletter

namespace ErrorCode

/-- The capitals of the units that have more than one. -/
def ligatures : List Text := ["SS", "FF", "FI", "FL", "FFI", "FFL", "ST"]

theorem two_le_length_of_mem_ligatures : ∀ t ∈ ligatures, 2 ≤ t.length := by decide

theorem spells_of_small {u : CodeUnit} (h : (0x61 ≤ u && u ≤ 0x7A) = true) :
    u.Spells (u - 0x20) := by
  simp only [Bool.and_eq_true, decide_eq_true_eq, UInt16.le_iff_toNat_le,
    UInt16.reduceToNat] at h
  have hle : (0x20 : CodeUnit) ≤ u := UInt16.le_iff_toNat_le.2 (by simp; omega)
  have hsub : (u - 0x20).toNat = u.toNat - 0x20 := UInt16.toNat_sub_of_le u 0x20 hle
  refine .inr (.inl ⟨?_, (UInt16.sub_add_cancel u 0x20).symm⟩)
  simp only [isLetter, Bool.or_eq_true, Bool.and_eq_true, decide_eq_true_eq,
    UInt16.le_iff_toNat_le, UInt16.reduceToNat, hsub]
  omega

/-- The capitals of a unit: one, which the unit spells if identifiers can have it, or those of a
ligature. -/
def IsCapital (u : CodeUnit) (t : Text) : Prop :=
  (∃ v, t = [v] ∧ (v.IsIdUnit → u.Spells v)) ∨ t ∈ ligatures

theorem isCapital_capital (u : CodeUnit) : IsCapital u (capital u) := by
  have hdotless : Text.ofString "I" = [0x49] := by decide
  have hlong : Text.ofString "S" = [0x53] := by decide
  unfold capital
  refine iteInduction (fun hsmall => ?_) fun _ => ?_
  · exact .inl ⟨_, rfl, fun _ => spells_of_small hsmall⟩
  refine iteInduction (fun _ => .inr (by decide)) fun _ => ?_
  refine iteInduction (fun _ => ?_) fun _ => ?_
  · exact .inl ⟨_, hdotless, fun h => absurd h (by decide)⟩
  refine iteInduction (fun hunit => ?_) fun _ => ?_
  · exact .inl ⟨_, hlong, fun _ => .inr (.inr ⟨beq_iff_eq.1 hunit, rfl⟩)⟩
  -- Six more units have ligatures, and all others stand for themselves.
  iterate 6 refine iteInduction (fun _ => .inr (by decide)) fun _ => ?_
  exact .inl ⟨u, rfl, fun _ => .inl rfl⟩

theorem capital_of_le {v : CodeUnit} (h : v ≤ 0x5A) : capital v = [v] := by
  simp only [UInt16.le_iff_toNat_le, UInt16.reduceToNat] at h
  unfold capital
  simp only [Bool.and_eq_true, Bool.or_eq_true, decide_eq_true_eq, beq_iff_eq,
    UInt16.le_iff_toNat_le, ← UInt16.toNat_inj, UInt16.reduceToNat]
  repeat rw [if_neg (by omega)]

/-- Only a capital letter among the units of identifiers is a letter. -/
theorem capital_of_letter {v : CodeUnit} (hletter : isLetter v = true) (h : v ≤ 0x5A) :
    capital (v + 0x20) = [v] := by
  simp only [isLetter, Bool.or_eq_true, Bool.and_eq_true, decide_eq_true_eq,
    UInt16.le_iff_toNat_le, UInt16.reduceToNat] at hletter h
  have hsmall : (0x61 ≤ v + 0x20 && v + 0x20 ≤ 0x7A) = true := by
    simp only [Bool.and_eq_true, decide_eq_true_eq, UInt16.le_iff_toNat_le, UInt16.toNat_add,
      UInt16.reduceToNat]
    omega
  rw [capital, if_pos hsmall, UInt16.add_sub_cancel]

theorem capital_eq_singleton_iff {u v : CodeUnit} (hv : v.IsIdUnit) :
    capital u = [v] ↔ u.Spells v := by
  constructor
  · intro h
    rcases isCapital_capital u with ⟨w, hw, hspells⟩ | hmem
    · rw [h] at hw
      cases hw
      exact hspells hv
    · have hlength := two_le_length_of_mem_ligatures _ hmem
      rw [h] at hlength
      cases hlength
      contradiction
  · rintro (rfl | ⟨hletter, rfl⟩ | ⟨rfl, rfl⟩)
    · exact capital_of_le hv.le
    · exact capital_of_letter hletter hv.le
    · decide

/-! ## Texts and identifiers -/

theorem isSpace_of_visible {u : CodeUnit} (hlow : 0x21 ≤ u.toNat) (hhigh : u.toNat ≤ 0x7E) :
    isSpace u = false := by
  simp only [isSpace, Bool.or_eq_false_iff, Bool.and_eq_false_iff, decide_eq_false_iff_not,
    beq_eq_false_iff_ne, UInt16.le_iff_toNat_le, ← UInt16.toNat_inj, ne_eq, UInt16.reduceToNat]
  omega

/-- The units of a text spell those of an identifier, one by one. -/
def SpelledBy (id body : Text) : Prop := List.Forall₂ CodeUnit.Spells body id

/-- Without the capitals of a ligature in it, a text of capitals comes from a text that spells
it. -/
theorem flatMap_capital_eq_iff {id body : Text} (hunits : ∀ v ∈ id, v.IsIdUnit)
    (hplain : ∀ t ∈ ligatures, ¬t <:+: id) :
    body.flatMap capital = id ↔ SpelledBy id body := by
  unfold SpelledBy
  induction body generalizing id with
  | nil => simp [eq_comm]
  | cons u body ih =>
    rw [List.flatMap_cons, List.forall₂_cons_left_iff]
    constructor
    · rintro rfl
      rcases isCapital_capital u with ⟨v, hv, hspells⟩ | hmem
      · rw [hv] at hunits hplain ⊢
        obtain ⟨hunit, hmore⟩ := List.forall_mem_cons.1 hunits
        refine ⟨v, _, hspells hunit, (ih hmore fun t ht hin => ?_).1 rfl, rfl⟩
        exact hplain t ht (hin.trans (List.suffix_cons v _).isInfix)
      · exact absurd (List.prefix_append _ _).isInfix (hplain _ hmem)
    · rintro ⟨v, more, hspells, hmore, rfl⟩
      obtain ⟨hunit, hunits⟩ := List.forall_mem_cons.1 hunits
      have hrest : body.flatMap capital = more := by
        refine (ih hunits fun t ht hin => ?_).2 hmore
        exact hplain t ht (hin.trans (List.suffix_cons v _).isInfix)
      rw [(capital_eq_singleton_iff hunit).2 hspells, hrest]
      rfl

/-- A text means a code if it spells the identifier of the code, or the part of it behind `SCN-`,
with blanks around it. -/
def MeantBy (code : ErrorCode) (t : Text) : Prop :=
  ∃ before body after, t = before ++ body ++ after ∧
    (∀ u ∈ before ++ after, isSpace u = true) ∧
    (SpelledBy code.id body ∨ SpelledBy (code.id.drop 4) body)

theorem isSpace_of_spells {u v : CodeUnit} (hv : v.IsIdUnit) (h : u.Spells v) :
    isSpace u = false := by
  have hvisible : 0x21 ≤ v.toNat ∧ v.toNat ≤ 0x5A := by
    simp only [IsIdUnit, hyphen, isDigit, Bool.and_eq_true, decide_eq_true_eq,
      UInt16.le_iff_toNat_le, ← UInt16.toNat_inj, ne_eq, UInt16.reduceToNat] at hv
    omega
  rcases h with rfl | ⟨-, rfl⟩ | ⟨rfl, -⟩
  · exact isSpace_of_visible hvisible.1 (by omega)
  · have hsmall : (v + 0x20).toNat = v.toNat + 0x20 := by
      simp only [UInt16.toNat_add, UInt16.reduceToNat]
      omega
    exact isSpace_of_visible (by omega) (by omega)
  · decide

theorem isIdUnit_of_mem_id (code : ErrorCode) : ∀ v ∈ code.id, v.IsIdUnit := by
  -- checked along the identifier: the statement itself would be decided over all the units
  have hall : code.id.all (fun v => decide v.IsIdUnit) = true := by
    cases code <;> decide
  simpa only [List.all_eq_true, decide_eq_true_eq] using hall

theorem isIdUnit_of_mem_drop (code : ErrorCode) (n : Nat) : ∀ v ∈ code.id.drop n, v.IsIdUnit :=
  fun v hv => code.isIdUnit_of_mem_id v (List.mem_of_mem_drop hv)

theorem not_ligature_infix_id (code : ErrorCode) : ∀ t ∈ ligatures, ¬t <:+: code.id := by
  cases code <;> decide +kernel

theorem flatMap_capital_eq_id_iff {code : ErrorCode} {body : Text} :
    body.flatMap capital = code.id ↔ SpelledBy code.id body :=
  flatMap_capital_eq_iff code.isIdUnit_of_mem_id code.not_ligature_infix_id

theorem flatMap_capital_eq_drop_iff {code : ErrorCode} {body : Text} :
    body.flatMap capital = code.id.drop 4 ↔ SpelledBy (code.id.drop 4) body :=
  flatMap_capital_eq_iff (code.isIdUnit_of_mem_drop 4) fun t ht hin =>
    code.not_ligature_infix_id t ht (hin.trans (List.drop_suffix 4 code.id).isInfix)

theorem SpelledBy.isSpace_eq_false {id body : Text} (h : SpelledBy id body)
    (hunits : ∀ v ∈ id, v.IsIdUnit) : ∀ u ∈ body, isSpace u = false := by
  unfold SpelledBy at h
  induction h with
  | nil => exact nofun
  | cons hspells _ ih =>
    obtain ⟨hunit, hmore⟩ := List.forall_mem_cons.1 hunits
    exact List.forall_mem_cons.2 ⟨isSpace_of_spells hunit hspells, ih hmore⟩

theorem SpelledBy.ne_nil {id body : Text} (h : SpelledBy id body) (hne : id ≠ []) :
    body ≠ [] := by
  rintro rfl
  cases h
  exact hne rfl

/-- An identifier is read from its capitals, with or without `SCN-`. -/
theorem normalId?_eq_some_id_iff_capitals {t : Text} {code : ErrorCode} :
    normalId? t = some code.id ↔
      (Text.trim isSpace t).flatMap capital = code.id ∨
        (Text.trim isSpace t).flatMap capital = code.id.drop 4 := by
  have hwhole : (Text.dropLeading? "SCN-" code.id).isSome = true ∧
      isWellFormedId code.id = true := by cases code <;> decide
  have hpart : (Text.dropLeading? "SCN-" (code.id.drop 4)).isSome = false ∧
      Text.ofString "SCN-" ++ code.id.drop 4 = code.id := by cases code <;> decide
  have hread : ∀ upper : Text,
      (if (Text.dropLeading? "SCN-" upper).isSome then upper else "SCN-" ++ upper) = code.id ↔
        upper = code.id ∨ upper = code.id.drop 4 := by
    intro upper
    constructor
    · intro h
      split at h
      · exact .inl h
      · exact .inr (by rw [← h]; rfl)
    · rintro (rfl | rfl)
      · rw [if_pos hwhole.1]
      · rw [hpart.1, if_neg nofun, hpart.2]
  have hform : ∀ id : Text,
      (if isWellFormedId id then some id else none) = some code.id ↔ id = code.id := by
    intro id
    constructor
    · intro h
      split at h
      · exact Option.some.inj h
      · cases h
    · rintro rfl
      rw [if_pos hwhole.2]
  rw [← hread, ← hform]
  rfl

theorem normalId?_eq_some_id_iff {t : Text} {code : ErrorCode} :
    normalId? t = some code.id ↔ code.MeantBy t := by
  rw [normalId?_eq_some_id_iff_capitals, flatMap_capital_eq_id_iff, flatMap_capital_eq_drop_iff]
  constructor
  · intro h
    obtain ⟨before, after, ht, hspace⟩ := Text.exists_trim isSpace t
    exact ⟨before, _, after, ht, hspace, h⟩
  · rintro ⟨before, body, after, rfl, hspace, h⟩
    have hids : code.id ≠ [] ∧ code.id.drop 4 ≠ [] := by cases code <;> decide
    have htrim : Text.trim isSpace (before ++ body ++ after) = body := by
      rcases h with h | h
      · exact Text.trim_append hspace (h.ne_nil hids.1)
          (h.isSpace_eq_false code.isIdUnit_of_mem_id)
      · exact Text.trim_append hspace (h.ne_nil hids.2)
          (h.isSpace_eq_false (code.isIdUnit_of_mem_drop 4))
    rw [htrim]
    exact h

/-! ## Unknown names -/

/-- A text that does not have the form of an identifier, or has that of one without a code. -/
def Unknown (t : Text) : Prop :=
  normalId? t = none ∨ ∃ id, normalId? t = some id ∧ ∀ code : ErrorCode, code.id ≠ id

theorem ofId?_eq_none_iff {id : Text} : ofId? id = none ↔ ∀ code : ErrorCode, code.id ≠ id := by
  have hall : ∀ code : ErrorCode, code ∈ all := by
    intro code
    cases code <;> decide
  simp [ofId?, hall]

theorem explain?_eq_none_iff {t : Text} : explain? t = none ↔ Unknown t := by
  unfold explain? Unknown
  cases normalId? t with
  | none => simp
  | some id => simp [ofId?_eq_none_iff]

/-- A name is unknown exactly if it means no code. -/
theorem unknown_iff {t : Text} : Unknown t ↔ ∀ code : ErrorCode, ¬code.MeantBy t := by
  simp only [← normalId?_eq_some_id_iff, Unknown]
  cases normalId? t with
  | none => simp
  | some id => simp [eq_comm]

end ErrorCode

end SceneTokens
