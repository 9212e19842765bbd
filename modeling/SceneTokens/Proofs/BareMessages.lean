import SceneTokens.Proofs.Diagnosis
import SceneTokens.Report.Enriched

/-!
# The message that a report is built from

A report puts its place behind the message that it is built from, and `Report.bareMessage`
takes a place off again.  The two fit together as long as there is a place to put there.
A report without a location puts nothing behind its message, but its bare message still loses
a place at the end, one that belongs to the wording.

So the message comes back from every report with a location, whatever it looks like.  From a
report without one it comes back exactly if it does not end with a place itself.

Main statement: `Report.message_comes_back`.
-/

namespace SceneTokens

open CodeUnit

/-- The message ends with a place: ` at `, digits, a colon and digits. -/
def Text.EndsWithPlace (message : Text) : Prop :=
  ∃ kept place, place.IsPlace ∧ message = kept ++ place

/-- A message is what it is without its place exactly if it has none. -/
theorem Text.withoutPlace_eq_self_iff {message : Text} :
    message.withoutPlace = message ↔ ¬message.EndsWithPlace := by
  constructor
  · rintro h ⟨kept, place, hplace, rfl⟩
    rw [withoutPlace_append kept hplace] at h
    have hlength := congrArg List.length h
    obtain @⟨line, column, hline, hcolumn, hlineDigits, hcolumnDigits⟩ := hplace
    simp only [List.length_append, List.length_cons] at hlength
    omega
  · intro h
    exact withoutPlace_of_forall_ne fun kept place hplace hmessage =>
      h ⟨kept, place, hplace, hmessage⟩

theorem ErrorCode.find_id (code : ErrorCode) : ErrorCode.find code.id = .ok code := by
  cases code <;> decide +kernel

theorem ErrorCode.id_ne_nil (code : ErrorCode) : code.id ≠ [] := by
  cases code <;> decide +kernel

/-- A location as scanning counts: lines from one, columns from zero. -/
def Location.Counted (l : Location) : Prop := 1 ≤ l.line ∧ 0 ≤ l.column

namespace Report

/-- What a report shows of the message that it is built from.  It shows all of it, unless the
report has no location and the message ends with a place; then it shows what stands before
that place.  Enriched reports and diagnostics show the same. -/
structure Shows (r : Report) (message : Text) (location : Option Location) : Prop where
  whole : r.bareMessage = message ↔ ¬(location = none ∧ message.EndsWithPlace)
  cut : ∀ kept place, location = none → place.IsPlace → message = kept ++ place →
    r.bareMessage = kept
  enriched : ∀ source around, (r.enrich source around).message = r.bareMessage
  diagnostic : (Diagnostic.ofReport r).message = r.bareMessage

theorem shows_of_message {r : Report} {message : Text} {location : Option Location}
    (hlocation : ∀ l, location = some l → l.Counted)
    (hmessage : r.message = message.withPlace location) : r.Shows message location := by
  have hbare : r.bareMessage = (message.withPlace location).withoutPlace := by
    rw [bareMessage, hmessage]
  cases location with
  | none =>
    refine ⟨?_, ?_, fun _ _ => rfl, rfl⟩
    · rw [hbare]
      simpa [Text.withPlace] using Text.withoutPlace_eq_self_iff
    · rintro kept place - hplace rfl
      rw [hbare]
      exact Text.withoutPlace_append kept hplace
  | some l =>
    obtain ⟨hline, hcolumn⟩ := hlocation l rfl
    have hwhole : r.bareMessage = message := by
      rw [hbare]
      exact Text.withoutPlace_withPlace message (by omega) hcolumn
    refine ⟨by simp [hwhole], ?_, fun _ _ => rfl, rfl⟩
    intro kept place hnone
    cases hnone

theorem general?_id (code : ErrorCode) (message : Text) (location : Option Location)
    (span : Option Span) (context : Option Context) :
    general? code.id message location span context =
      .ok (general code message location span context) := by
  rw [general?, if_neg (by simpa using code.id_ne_nil), ErrorCode.find_id]
  rfl

/-- Reports of registered identifiers can be built, and show what they are built from.

* A report of any code shows its message, unless it has no location and the message ends with
  a place.
* So does a contract report.
* A lexer report always has a location, the start of its span if no other is given, and shows
  every message. -/
theorem message_comes_back (code : ErrorCode) (message : Text)
    {location : Option Location} (hlocation : ∀ l, location = some l → l.Counted)
    (context : Option Context) :
    (∀ span, ∃ r, general? code.id message location span context = .ok r ∧
      r.Shows message location) ∧
    (code.category = .contract → ∃ r, contract? code.id message location context = .ok r ∧
      r.Shows message location) ∧
    (code.category = .lexer → ∀ span : Span, (location = none → span.start.Counted) →
      ∃ r, lexer? code.id message span location context = .ok r ∧
        r.Shows message (some (location.getD span.start)) ∧ r.bareMessage = message) := by
  refine ⟨?_, ?_, ?_⟩
  · intro span
    exact ⟨_, general?_id code message location span context, shows_of_message hlocation rfl⟩
  · intro hcategory
    exact ⟨_, contract?_id hcategory message location context, shows_of_message hlocation rfl⟩
  · intro hcategory span hspan
    have hcounted : ∀ l, some (location.getD span.start) = some l → l.Counted := by
      rintro l ⟨⟩
      cases location with
      | none => exact hspan rfl
      | some l => exact hlocation l rfl
    have hbuilt : lexer? code.id message span location context =
        .ok (lexer code message span (location.getD span.start) context) :=
      lexer?_id hcategory message span (location.getD span.start) context
    have hshows : Shows (lexer code message span (location.getD span.start) context) message
        (some (location.getD span.start)) := shows_of_message hcounted rfl
    exact ⟨_, hbuilt, hshows, hshows.whole.2 nofun⟩

/-- A message that ends with two places, in reports with a location and in one without. -/
theorem message_comes_back_two_places :
    let message : Text := "m at 1:2 at 3:4"
    let location : Location := ⟨3, 4, 20⟩
    location.Counted ∧
      (∃ r, contract? "SCN-C001" message (some location) none = .ok r ∧
        r.bareMessage = message) ∧
      (∃ r, lexer? "SCN-L001" message (Span.point location) none none = .ok r ∧
        r.bareMessage = message) ∧
      ∃ r, general? "SCN-C001" message none none none = .ok r ∧
        r.bareMessage = Text.ofString "m at 1:2" := by
  intro message location
  have hlocation : location.Counted := by
    unfold Location.Counted
    decide
  have hplace : Text.IsPlace (Text.ofString " at 3:4") := by
    have hparts : Text.ofString " at 3:4" =
        Text.ofString " at " ++ Text.ofString "3" ++ colon :: Text.ofString "4" := by
      decide +kernel
    rw [hparts]
    exact .intro (by decide +kernel) (by decide +kernel) (List.all_eq_true.1 (by decide +kernel))
      (List.all_eq_true.1 (by decide +kernel))
  have hsplit : message = Text.ofString "m at 1:2" ++ Text.ofString " at 3:4" := by
    decide +kernel
  refine ⟨hlocation, ?_, ?_, ?_⟩
  · obtain ⟨r, hr, hshows⟩ := (@message_comes_back .bareCarriageReturn message (some location)
      (by rintro l ⟨⟩; exact hlocation) none).2.1 rfl
    exact ⟨r, hr, hshows.whole.2 nofun⟩
  · obtain ⟨r, hr, -, hwhole⟩ := (@message_comes_back .unterminatedString message none nofun
      none).2.2 rfl (Span.point location) fun _ => hlocation
    exact ⟨r, hr, hwhole⟩
  · obtain ⟨r, hr, hshows⟩ := (@message_comes_back .bareCarriageReturn message none nofun
      none).1 none
    exact ⟨r, hr, hshows.cut _ _ rfl hplace hsplit⟩

/-- A report without a location does not give back a message that ends with a place. -/
theorem message_cut_without_location :
    ∃ r, general? "SCN-L003" "m at 1:2" none none none = .ok r ∧
      r.bareMessage = Text.ofString "m" ∧ r.bareMessage ≠ Text.ofString "m at 1:2" ∧
      (r.enrich [] 2).message = Text.ofString "m" ∧
      (Diagnostic.ofReport r).message = Text.ofString "m" :=
  ⟨_, rfl, by decide +kernel, by decide +kernel, by decide +kernel, by decide +kernel⟩

end Report

end SceneTokens
