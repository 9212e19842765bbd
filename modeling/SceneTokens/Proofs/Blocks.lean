import SceneTokens.Proofs.Reach

/-!
# The open blocks

The runs of the open blocks are nested: every run strictly continues those of all blocks
around it, down to the empty run of the top level (`Nested`).  A move of the lexer keeps
them nested, and a stream is taken back only to a state that it was in before, so the
blocks of a stream are nested as long as none is opened by force
(`Session.Reachable.nested`).

Nested runs get shorter from the inside to the outside.  So the ones that are longer than
a given length are the innermost ones (`Nested.drop_longer`), and a run that agrees with
the innermost one agrees with all of them (`Nested.agrees_drop`).
-/

namespace SceneTokens

open CodeUnit Relation

/-! ## Nested runs -/

/-- The run of an inner block strictly continues the run of an outer one. -/
def Text.Continues (inner outer : Text) : Prop :=
  outer <+: inner ∧ outer.length < inner.length

theorem Text.Continues.trans {a b c : Text} (hab : a.Continues b) (hbc : b.Continues c) :
    a.Continues c :=
  ⟨hbc.1.trans hab.1, Nat.lt_trans hbc.2 hab.2⟩

/-- One of two runs is a beginning of the other. -/
def Text.Agrees (a b : Text) : Prop := a <+: b ∨ b <+: a

/-- The runs of blocks, innermost first, of spaces and tabs and each inside the next. -/
structure Nested (blocks : List Text) : Prop where
  /-- The last run is the one of the top level. -/
  chain : (blocks ++ [[]]).Pairwise Text.Continues
  horizontal : ∀ run ∈ blocks, ∀ u ∈ run, isHorizontal u = true

namespace Nested

variable {blocks : List Text}

theorem nil : Nested [] :=
  ⟨List.pairwise_singleton _ _, fun _ h => absurd h List.not_mem_nil⟩

theorem drop (h : Nested blocks) (n : Nat) : Nested (blocks.drop n) := by
  refine ⟨h.chain.sublist ?_, fun run hrun => h.horizontal run (List.mem_of_mem_drop hrun)⟩
  exact (List.drop_sublist n blocks).append_right [[]]

theorem continues_of_mem {b outer : Text} (h : Nested (b :: blocks))
    (hmem : outer ∈ blocks ++ [[]]) : b.Continues outer :=
  (List.pairwise_cons.1 h.chain).1 outer hmem

/-- A run that strictly continues the innermost block is one of a block inside it. -/
theorem cons {run : Text} (h : Nested blocks) (hrun : ∀ u ∈ run, isHorizontal u = true)
    (hcontinues : run.Continues (blocks.headD [])) : Nested (run :: blocks) := by
  refine ⟨List.pairwise_cons.2 ⟨?_, h.chain⟩, ?_⟩
  · intro outer houter
    cases blocks with
    | nil =>
      rw [List.mem_singleton.1 houter]
      exact hcontinues
    | cons b more =>
      rcases List.mem_cons.1 houter with rfl | houter
      · exact hcontinues
      · exact hcontinues.trans (h.continues_of_mem houter)
  · intro other hother
    rcases List.mem_cons.1 hother with rfl | hother
    · exact hrun
    · exact h.horizontal other hother

theorem ne_nil {b : Text} (h : Nested (b :: blocks)) : b ≠ [] := by
  have hlt := (h.continues_of_mem (List.mem_append_right blocks (List.mem_singleton.2 rfl))).2
  exact List.ne_nil_of_length_pos hlt

/-- The run around any number of blocks is a beginning of the innermost one. -/
theorem headD_drop_prefix (h : Nested blocks) (n : Nat) :
    (blocks.drop n).headD [] <+: blocks.headD [] := by
  cases blocks with
  | nil => simp
  | cons b more =>
    cases n with
    | zero => exact List.prefix_rfl
    | succ n =>
      have hmem : (more.drop n).headD [] ∈ more ++ [[]] := by
        cases hdrop : more.drop n with
        | nil => exact List.mem_append_right more (List.mem_singleton.2 rfl)
        | cons outer rest =>
          have houter : outer ∈ more.drop n := hdrop ▸ List.mem_cons_self
          exact List.mem_append_left _ (List.mem_of_mem_drop houter)
      exact (h.continues_of_mem hmem).1

/-- A run that agrees with the innermost block agrees with all blocks around it. -/
theorem agrees_drop {run : Text} (h : Nested blocks) (hagrees : run.Agrees (blocks.headD []))
    (n : Nat) : run.Agrees ((blocks.drop n).headD []) := by
  rcases hagrees with hinside | hbeyond
  · exact List.prefix_or_prefix_of_prefix hinside (h.headD_drop_prefix n)
  · exact .inr ((h.headD_drop_prefix n).trans hbeyond)

/-- The blocks whose runs are longer than `k` are the innermost ones. -/
theorem longer_append_kept (h : Nested blocks) (k : Nat) :
    blocks.filter (k < ·.length) ++ blocks.filter (·.length ≤ k) = blocks := by
  induction blocks with
  | nil => rfl
  | cons b more ih =>
    rcases Nat.lt_or_ge k b.length with hlong | hshort
    · have hmore := ih (h.drop 1)
      simp only [List.filter_cons, hlong, Nat.not_le.2 hlong, decide_true, decide_false, if_true,
        Bool.false_eq_true, if_false, List.cons_append, hmore]
    · -- From the first run that is not longer, no outer one is longer either.
      have hall : ∀ run ∈ b :: more, run.length ≤ k := by
        intro run hrun
        rcases List.mem_cons.1 hrun with rfl | hrun
        · exact hshort
        · exact Nat.le_trans
            (Nat.le_of_lt (h.continues_of_mem (List.mem_append_left [[]] hrun)).2) hshort
      have hnone : (b :: more).filter (k < ·.length) = [] := by
        rw [List.filter_eq_nil_iff]
        intro run hrun hlong
        exact Nat.not_lt.2 (hall run hrun) (of_decide_eq_true hlong)
      have hsome : (b :: more).filter (·.length ≤ k) = b :: more :=
        List.filter_eq_self.2 fun run hrun => decide_eq_true (hall run hrun)
      rw [hnone, hsome, List.nil_append]

theorem drop_longer (h : Nested blocks) (k : Nat) :
    blocks.drop (blocks.filter (k < ·.length)).length = blocks.filter (·.length ≤ k) := by
  have hsplit := congrArg (List.drop (blocks.filter (k < ·.length)).length)
    (h.longer_append_kept k)
  rw [List.drop_left] at hsplit
  exact hsplit.symm

/-- The innermost block is longer as long as some block is. -/
theorem lt_headD_drop (h : Nested blocks) {k n : Nat}
    (hn : n < (blocks.filter (k < ·.length)).length) :
    k < ((blocks.drop n).headD []).length := by
  have hsplit := congrArg (List.drop n) (h.longer_append_kept k)
  rw [List.drop_append_of_le_length (Nat.le_of_lt hn), List.drop_eq_getElem_cons hn] at hsplit
  rw [← hsplit]
  have hmem := List.getElem_mem hn
  exact of_decide_eq_true (List.mem_filter.1 hmem).2

end Nested

/-! ## Nested blocks of lexers and streams -/

theorem Lexer.Move.nested {lx after : Lexer} (h : Nested lx.blocks) (hmove : lx.Move after) :
    Nested after.blocks := by
  cases hmove with
  | skip => exact h
  | closeBlock =>
    have hdrop := h.drop 1
    rw [List.drop_one] at hdrop
    exact hdrop
  | openBlock hrun hpre hlt => exact h.cons hrun ⟨hpre, hlt⟩

theorem Lexer.Moves.nested {lx after : Lexer} (h : Nested lx.blocks) (hmoves : lx.Moves after) :
    Nested after.blocks := by
  induction hmoves with
  | refl => exact h
  | tail _ hmove ih => exact hmove.nested ih

namespace Stream

/-- The blocks of a stream are nested, and so are those of every state that it can be
taken back to. -/
structure NestedBlocks (s : Stream) : Prop where
  now : Nested s.lexer.blocks
  saved : ∀ x ∈ s.snapshots, Nested x.saved.blocks

theorem NestedBlocks.moves {s after : Stream} (h : s.NestedBlocks)
    (hmoves : Moves Action.IsOperation s after) : after.NestedBlocks := by
  have hkeeps : s.Keeps fun lx => Nested lx.blocks := ⟨h.now, h.saved⟩
  obtain ⟨hnow, hsaved⟩ := hkeeps.moves (fun hlx hmove => hmove.nested hlx)
    (fun hallowed _ => hallowed.elim) hmoves
  exact ⟨hnow, hsaved⟩

theorem nestedBlocks_ofSource (tag : Nat) (source : Text) : (ofSource tag source).NestedBlocks :=
  ⟨Nested.nil, fun _ h => absurd h List.not_mem_nil⟩

end Stream

theorem Session.Reachable.nested {w : Session} (h : w.Reachable Action.IsOperation) (i : Nat) :
    (w.stream i).NestedBlocks := by
  obtain ⟨sources, hreaches⟩ := h
  obtain ⟨tag, source, hstart⟩ := stream_ofSources sources i
  have hnested := Stream.nestedBlocks_ofSource tag source
  rw [← hstart] at hnested
  exact hnested.moves (hreaches.stream i)

end SceneTokens
