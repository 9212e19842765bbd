import SceneTokens.Command.Arguments
import SceneTokens.Proofs.Messages

/-!
# The grammar of arguments

An argument list that asks for a listing is a list of items: a format in one of its two
spellings, a switch, or a file.  `Item.arguments` writes an item down, and a list of arguments
splits into items if it is what they are written as, one after the other.  What an argument list
means is told by its items (`Command.Means`), except where help or the version is asked for from
any place, or documentation behind some items.

One item is read in one step, which changes one option (`readArguments_arguments_append`); every
step that does not fail reads an item or the request for documentation
(`readArguments_cons_cases`).  By induction a whole list is read exactly if it splits
(`readArguments_eq_ok_iff`).

Main statement: `Command.ofArguments_exact`.
-/

namespace SceneTokens

open CodeUnit

theorem exists_of_bind_eq_ok {ε α β : Type} {x : Except ε α} {next : α → Except ε β} {b : β}
    (h : x >>= next = .ok b) : ∃ a, x = .ok a ∧ next a = .ok b := by
  cases x with
  | error e => cases h
  | ok a => exact ⟨a, rfl, h⟩

namespace Command

/-! ## Items -/

/-- What an argument list is made of. -/
inductive Item
  /-- A format behind its option. -/
  | format (format : OutputFormat)
  /-- A format joined to its option. -/
  | joinedFormat (format : OutputFormat)
  /-- The switch that includes comments, or the one that drops them. -/
  | comments (included : Bool)
  | file (name : Text)

namespace Item

/-- The arguments that an item is written as. -/
def arguments : Item → List Text
  | .format chosen => ["--format", chosen.name]
  | .joinedFormat chosen => ["--format=" ++ chosen.name]
  | .comments true => ["--comments"]
  | .comments false => ["--no-comments"]
  | .file name => [name]

/-- A file has no hyphen in front, except the one that stands for the standard input. -/
def Valid : Item → Prop
  | .file name => name = [hyphen] ∨ name.head? ≠ some hyphen
  | .format _ | .joinedFormat _ | .comments _ => True

/-- The format that an item chooses. -/
def format? : Item → Option OutputFormat
  | .format chosen | .joinedFormat chosen => some chosen
  | .comments _ | .file _ => none

/-- What an item chooses about comments. -/
def comments? : Item → Option Bool
  | .comments included => some included
  | .format _ | .joinedFormat _ | .file _ => none

/-- The file that an item names. -/
def file? : Item → Option Text
  | .file name => some name
  | .format _ | .joinedFormat _ | .comments _ => none

end Item

/-- The files that some items name. -/
def files (items : List Item) : List Text := items.filterMap Item.file?

/-- The format of the last item that chooses one. -/
def lastFormat (items : List Item) : Option OutputFormat := (items.filterMap Item.format?).getLast?

/-- The choice of the last switch. -/
def lastComments (items : List Item) : Option Bool := (items.filterMap Item.comments?).getLast?

/-- An argument list is some items, from left to right. -/
structure Splits (arguments : List Text) (items : List Item) : Prop where
  valid : ∀ item ∈ items, item.Valid
  written : arguments = items.flatMap Item.arguments

/-! ## What argument lists mean -/

/-- Help is asked for somewhere. -/
def AsksHelp (arguments : List Text) : Prop :=
  Text.ofString "--help" ∈ arguments ∨ Text.ofString "-h" ∈ arguments

/-- The version is asked for somewhere. -/
def AsksVersion (arguments : List Text) : Prop := Text.ofString "--version" ∈ arguments

/-- An argument list asks for a command. -/
def Means (arguments : List Text) : Command → Prop
  | .tokens file format includeComments =>
    ¬AsksHelp arguments ∧ ¬AsksVersion arguments ∧
      ∃ items, Splits arguments items ∧ files items = [file] ∧
        format = lastFormat items ∧ includeComments = lastComments items
  | .help =>
    AsksHelp arguments ∨
      ¬AsksVersion arguments ∧ ∃ items, Splits arguments items ∧ files items = []
  | .version => AsksVersion arguments ∧ ¬AsksHelp arguments
  | .explain id =>
    ¬AsksHelp arguments ∧ ¬AsksVersion arguments ∧
      ∃ before items rest, Splits before items ∧ (files items).length ≤ 1 ∧
        arguments = before ++ Text.ofString "--explain" :: id :: rest

/-! ## One item -/

/-- The options behind an item. -/
def Options.add (o : Options) : Item → Options
  | .format format | .joinedFormat format => { o with format := some format }
  | .comments included => { o with includeComments := some included }
  | .file name => { o with file := some name }

/-- The command of options that nothing follows. -/
def Options.command (o : Options) : Command :=
  match o.file with
  | some file => .tokens file o.format o.includeComments
  | none => .help

theorem readArguments_nil (o : Options) : readArguments o [] = .ok o.command := by
  unfold readArguments Options.command
  cases o.file <;> rfl

theorem formatNamed_eq_ok_iff {value : Text} {format : OutputFormat} :
    formatNamed value = .ok format ↔ value = format.name := by
  rw [← OutputFormat.ofName?_eq_some_iff]
  unfold formatNamed
  cases OutputFormat.ofName? value <;> simp

theorem isOption_eq_false_iff {argument : Text} :
    isOption argument = false ↔ (Item.file argument).Valid := by
  unfold isOption Item.Valid
  by_cases h : argument = [hyphen] <;> simp [h]

/-- A file is none of the options. -/
theorem not_isOption_cases {name : Text} (h : isOption name = false) :
    (name == Text.ofString "--explain") = false ∧ (name == Text.ofString "--format") = false ∧
      Text.dropLeading? (Text.ofString "--format=") name = none ∧
      (name == Text.ofString "--comments") = false ∧
      (name == Text.ofString "--no-comments") = false := by
  -- Every option has a hyphen in front, and is not the hyphen alone.
  have hne : ∀ option, isOption option = true → (name == option) = false := by
    rintro option hoption
    refine beq_false_of_ne ?_
    rintro rfl
    rw [h] at hoption
    cases hoption
  refine ⟨hne _ (by decide +kernel), hne _ (by decide +kernel), ?_, hne _ (by decide +kernel),
    hne _ (by decide +kernel)⟩
  cases hjoined : Text.dropLeading? (Text.ofString "--format=") name with
  | none => rfl
  | some value =>
    have hname := Text.dropLeading?_eq_some_iff.1 hjoined
    have hoption : isOption (Text.ofString "--format=" ++ value) = true := by
      have hstart : Text.ofString "--format=" = hyphen :: hyphen :: Text.ofString "format=" := by
        decide +kernel
      rw [hstart]
      simp [isOption]
    rw [← hname, h] at hoption
    cases hoption

/-- An item is read in one step.  A file is read only if there is none yet. -/
theorem readArguments_arguments_append {item : Item} (hvalid : item.Valid) {o : Options}
    (hfile : item.file?.isSome → o.file = none) (rest : List Text) :
    readArguments o (item.arguments ++ rest) = readArguments (o.add item) rest := by
  cases item with
  | format chosen =>
    have hoption : (Text.ofString "--format" == Text.ofString "--explain") = false := by
      decide +kernel
    simp only [Item.arguments, List.cons_append, List.nil_append]
    rw [readArguments.eq_def]
    simp only [hoption, beq_self_eq_true, Bool.false_eq_true, if_false, if_true,
      formatNamed_eq_ok_iff.2 (rfl : chosen.name = chosen.name)]
    rfl
  | joinedFormat chosen =>
    have hoption : (Text.ofString "--format=" ++ chosen.name == Text.ofString "--explain") = false ∧
        (Text.ofString "--format=" ++ chosen.name == Text.ofString "--format") = false := by
      cases chosen <;> decide +kernel
    simp only [Item.arguments, List.cons_append, List.nil_append]
    rw [readArguments.eq_def]
    simp only [hoption, Bool.false_eq_true, if_false, Text.dropLeading?_eq_some_iff.2 rfl,
      formatNamed_eq_ok_iff.2 (rfl : chosen.name = chosen.name)]
    rfl
  | comments included =>
    have hjoined :
        Text.dropLeading? (Text.ofString "--format=") (Text.ofString "--comments") = none ∧
        Text.dropLeading? (Text.ofString "--format=") (Text.ofString "--no-comments") = none := by
      decide +kernel
    cases included with
    | true =>
      simp only [Item.arguments, List.cons_append, List.nil_append]
      rw [readArguments.eq_def]
      simp only [hjoined]
      rfl
    | false =>
      simp only [Item.arguments, List.cons_append, List.nil_append]
      rw [readArguments.eq_def]
      simp only [hjoined]
      rfl
  | file name =>
    have hname := isOption_eq_false_iff.2 hvalid
    obtain ⟨hexplain, hformat, hjoined, hcomments, hdropped⟩ := not_isOption_cases hname
    simp only [Item.arguments, List.cons_append, List.nil_append]
    rw [readArguments.eq_def]
    simp only [hexplain, hformat, hjoined, hcomments, hdropped, hname, hfile rfl,
      Option.isSome_none, Bool.false_eq_true, if_false]
    rfl

/-- What comes first in an argument list that is read: an item, or the request for the
documentation of a code. -/
theorem readArguments_cons_cases {o : Options} {argument : Text} {rest : List Text}
    {command : Command} (h : readArguments o (argument :: rest) = .ok command) :
    (∃ id more, argument = Text.ofString "--explain" ∧ rest = id :: more ∧
      command = .explain id) ∨
    ∃ item more, item.Valid ∧ (item.file?.isSome → o.file = none) ∧
      argument :: rest = item.arguments ++ more ∧
      readArguments (o.add item) more = .ok command := by
  unfold readArguments at h
  split at h
  · rename_i hexplain
    cases rest with
    | nil => cases h
    | cons id more =>
      cases h
      exact .inl ⟨id, more, beq_iff_eq.1 hexplain, rfl, rfl⟩
  refine .inr ?_
  split at h
  · rename_i hformat
    cases rest with
    | nil => cases h
    | cons value more =>
      obtain ⟨format, hnamed, hmore⟩ := exists_of_bind_eq_ok h
      obtain rfl := formatNamed_eq_ok_iff.1 hnamed
      exact ⟨.format format, more, trivial, nofun, by rw [beq_iff_eq.1 hformat]; rfl, hmore⟩
  split at h
  · rename_i value hjoined
    obtain ⟨format, hnamed, hmore⟩ := exists_of_bind_eq_ok h
    obtain rfl := formatNamed_eq_ok_iff.1 hnamed
    obtain rfl := Text.dropLeading?_eq_some_iff.1 hjoined
    exact ⟨.joinedFormat format, rest, trivial, nofun, rfl, hmore⟩
  split at h
  · rename_i hcomments
    exact ⟨.comments true, rest, trivial, nofun, by rw [beq_iff_eq.1 hcomments]; rfl, h⟩
  split at h
  · rename_i hdropped
    exact ⟨.comments false, rest, trivial, nofun, by rw [beq_iff_eq.1 hdropped]; rfl, h⟩
  split at h
  · cases h
  rename_i hoption
  split at h
  · cases h
  · rename_i hfirst
    exact ⟨.file argument, rest, isOption_eq_false_iff.1 (by simpa using hoption),
      fun _ => by simpa using hfirst, rfl, h⟩

/-! ## All items -/

theorem file_eq_none_of_length_le {o : Options} {item : Item} {items : List Item}
    (h : (o.file.toList ++ files (item :: items)).length ≤ 1) :
    item.file?.isSome → o.file = none := by
  intro hitem
  obtain ⟨name, hname⟩ := Option.isSome_iff_exists.1 hitem
  cases hfile : o.file with
  | none => rfl
  | some first =>
    simp [hfile, files, hname] at h

theorem length_files_add {o : Options} {item : Item} (h : item.file?.isSome → o.file = none)
    (items : List Item) :
    ((o.add item).file.toList ++ files items).length =
      (o.file.toList ++ files (item :: items)).length := by
  cases item with
  | format chosen | joinedFormat chosen | comments included => rfl
  | file name => simp [h rfl, Options.add, files, Item.file?]

/-- Items are read one after the other, as long as there is at most one file. -/
theorem readArguments_flatMap_append {items : List Item} (hvalid : ∀ item ∈ items, item.Valid)
    {o : Options} (hfiles : (o.file.toList ++ files items).length ≤ 1) (rest : List Text) :
    readArguments o (items.flatMap Item.arguments ++ rest) =
      readArguments (items.foldl Options.add o) rest := by
  induction items generalizing o with
  | nil => rfl
  | cons item items ih =>
    obtain ⟨hitem, hitems⟩ := List.forall_mem_cons.1 hvalid
    have hfirst := file_eq_none_of_length_le hfiles
    rw [← length_files_add hfirst] at hfiles
    rw [List.flatMap_cons, List.append_assoc, readArguments_arguments_append hitem hfirst,
      ih hitems hfiles]
    rfl

/-- An argument list is read exactly if it is items with at most one file among them, and
nothing or the request for the documentation of a code behind them. -/
theorem readArguments_eq_ok_iff {o : Options} {arguments : List Text} {command : Command} :
    readArguments o arguments = .ok command ↔
      ∃ items rest, (∀ item ∈ items, item.Valid) ∧
        (o.file.toList ++ files items).length ≤ 1 ∧
        arguments = items.flatMap Item.arguments ++ rest ∧
        (rest = [] ∧ command = (items.foldl Options.add o).command ∨
          ∃ id more, rest = Text.ofString "--explain" :: id :: more ∧ command = .explain id) := by
  constructor
  · -- Every item is at least one argument, so what is left to read gets shorter.
    intro h
    induction hlength : arguments.length using Nat.strong_induction_on
      generalizing o arguments with
    | _ n ih =>
    cases arguments with
    | nil =>
      rw [readArguments_nil] at h
      cases h
      refine ⟨[], [], nofun, ?_, rfl, .inl ⟨rfl, rfl⟩⟩
      cases o.file <;> simp [files]
    | cons argument arguments =>
      rcases readArguments_cons_cases h with
        ⟨id, more, rfl, rfl, rfl⟩ | ⟨item, more, hitem, hfile, hwritten, hmore⟩
      · refine ⟨[], _, nofun, ?_, rfl, .inr ⟨id, more, rfl, rfl⟩⟩
        cases o.file <;> simp [files]
      · have hshorter : more.length < n := by
          have hitemLength : item.arguments ≠ [] := by
            cases item with
            | comments included => cases included <;> nofun
            | format | joinedFormat | file => nofun
          have hpos := List.length_pos_iff.2 hitemLength
          have hsum := congrArg List.length hwritten
          rw [hlength, List.length_append] at hsum
          omega
        obtain ⟨items, rest, hitems, hfiles, rfl, hend⟩ := ih _ hshorter hmore rfl
        rw [length_files_add hfile] at hfiles
        refine ⟨item :: items, rest, List.forall_mem_cons.2 ⟨hitem, hitems⟩, hfiles, ?_, hend⟩
        rw [hwritten, List.flatMap_cons, List.append_assoc]
  · rintro ⟨items, rest, hitems, hfiles, rfl, ⟨rfl, rfl⟩ | ⟨id, more, rfl, rfl⟩⟩
    · rw [readArguments_flatMap_append hitems hfiles, readArguments_nil]
    · rw [readArguments_flatMap_append hitems hfiles, readArguments.eq_def]
      simp only [beq_self_eq_true, if_true]

theorem foldl_add (items : List Item) (o : Options) :
    items.foldl Options.add o =
      ⟨(files items).getLast?.or o.file, (lastFormat items).or o.format,
        (lastComments items).or o.includeComments⟩ := by
  induction items generalizing o with
  | nil => rfl
  | cons item items ih =>
    rw [List.foldl_cons, ih]
    cases item <;>
      simp [files, lastFormat, lastComments, Options.add, Item.file?, Item.format?,
        Item.comments?, List.getLast?_cons]

/-! ## Commands -/

/-- What argument lists give that ask neither for help nor for the version. -/
theorem readArguments_eq_ok_iff_splits {arguments : List Text} {command : Command} :
    readArguments ⟨none, none, none⟩ arguments = .ok command ↔
      (∃ items, Splits arguments items ∧
        (files items = [] ∧ command = .help ∨
          ∃ file, files items = [file] ∧
            command = .tokens file (lastFormat items) (lastComments items))) ∨
      ∃ before items id rest, Splits before items ∧ (files items).length ≤ 1 ∧
        arguments = before ++ Text.ofString "--explain" :: id :: rest ∧ command = .explain id := by
  have hcommand : ∀ items, (items.foldl Options.add ⟨none, none, none⟩).command =
      match (files items).getLast? with
      | some file => .tokens file (lastFormat items) (lastComments items)
      | none => .help := by
    intro items
    simp only [foldl_add, Option.or_none]
    rfl
  rw [readArguments_eq_ok_iff]
  constructor
  · rintro ⟨items, rest, hvalid, hfiles, rfl, ⟨rfl, rfl⟩ | ⟨id, more, rfl, rfl⟩⟩
    · refine .inl ⟨items, ⟨hvalid, List.append_nil _⟩, ?_⟩
      rw [hcommand]
      match hnames : files items, hfiles with
      | [], _ => exact .inl ⟨rfl, rfl⟩
      | [file], _ => exact .inr ⟨file, rfl, rfl⟩
    · exact .inr ⟨_, items, id, more, ⟨hvalid, rfl⟩, hfiles, rfl, rfl⟩
  · rintro (⟨items, ⟨hvalid, rfl⟩, ⟨hnone, rfl⟩ | ⟨file, hone, rfl⟩⟩ |
      ⟨before, items, id, more, ⟨hvalid, rfl⟩, hfiles, rfl, rfl⟩)
    · refine ⟨items, [], hvalid, ?_, (List.append_nil _).symm, .inl ⟨rfl, ?_⟩⟩
      · simp [hnone]
      · rw [hcommand, hnone]
        rfl
    · refine ⟨items, [], hvalid, ?_, (List.append_nil _).symm, .inl ⟨rfl, ?_⟩⟩
      · simp [hone]
      · rw [hcommand, hone]
        rfl
    · exact ⟨items, _, hvalid, hfiles, rfl, .inr ⟨id, more, rfl, rfl⟩⟩

theorem ofArguments_of_asksHelp {arguments : List Text} (h : AsksHelp arguments) :
    ofArguments arguments = .ok .help := by
  unfold ofArguments
  rw [if_pos (by simpa [AsksHelp] using h)]

theorem ofArguments_of_asksVersion {arguments : List Text} (hhelp : ¬AsksHelp arguments)
    (h : AsksVersion arguments) : ofArguments arguments = .ok .version := by
  unfold ofArguments
  rw [if_neg (by simpa [AsksHelp] using hhelp), if_pos (by simpa [AsksVersion] using h)]

theorem ofArguments_of_not_asks {arguments : List Text} (hhelp : ¬AsksHelp arguments)
    (hversion : ¬AsksVersion arguments) :
    ofArguments arguments = readArguments ⟨none, none, none⟩ arguments := by
  unfold ofArguments
  rw [if_neg (by simpa [AsksHelp] using hhelp), if_neg (by simpa [AsksVersion] using hversion)]

theorem ofArguments_eq_ok_iff {arguments : List Text} {command : Command} :
    ofArguments arguments = .ok command ↔ Means arguments command := by
  by_cases hhelp : AsksHelp arguments
  · rw [ofArguments_of_asksHelp hhelp]
    cases command <;> simp [Means, hhelp]
  by_cases hversion : AsksVersion arguments
  · rw [ofArguments_of_asksVersion hhelp hversion]
    cases command <;> simp [Means, hhelp, hversion]
  rw [ofArguments_of_not_asks hhelp hversion, readArguments_eq_ok_iff_splits]
  cases command with
  | tokens file format includeComments =>
    simp only [Means, hhelp, hversion, not_false_eq_true, true_and]
    constructor
    · rintro (⟨items, hsplits, ⟨-, hcommand⟩ | ⟨name, hone, hcommand⟩⟩ |
        ⟨before, items, id, rest, -, -, -, hcommand⟩)
      · cases hcommand
      · cases hcommand
        exact ⟨items, hsplits, hone, rfl, rfl⟩
      · cases hcommand
    · rintro ⟨items, hsplits, hone, rfl, rfl⟩
      exact .inl ⟨items, hsplits, .inr ⟨file, hone, rfl⟩⟩
  | help => simp [Means, hhelp, hversion]
  | version => simp [Means, hhelp, hversion]
  | explain id => simp [Means, hhelp, hversion]

/-- An argument list gives a command exactly if it means that command, and is refused if it means
none. -/
theorem ofArguments_exact (arguments : List Text) :
    (∀ command, ofArguments arguments = .ok command ↔ Means arguments command) ∧
      ((∃ e, ofArguments arguments = .error e) ↔ ∀ command, ¬Means arguments command) := by
  refine ⟨fun command => ofArguments_eq_ok_iff, ?_⟩
  simp only [← ofArguments_eq_ok_iff]
  cases ofArguments arguments <;> simp

end Command

end SceneTokens
