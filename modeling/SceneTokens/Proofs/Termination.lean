import SceneTokens.Proofs.Locations
import SceneTokens.Proofs.Replay

/-!
# Scanning comes to an end

A loop over the tokens of a stream ends at the end of the stream or at the first fault.  That
it gets there is no matter of the place alone, since a closed block moves nothing, nor of
the depth, since a block may be opened behind one that was closed on the same line.
`Stream.remaining` counts both, the units ahead twice.

* `Stream.remaining_next_lt`: every token but the end of the stream takes something off.
* `Stream.Loop` has the calls of a loop one by one, without any bound on them, and
  `Stream.exists_loop` finds a loop that ends, with its number of calls bounded by what
  remained at first.

Main statement: `scanning_ends`.
-/

namespace SceneTokens

theorem Scan.result_cons (t : Token) (s : Scan) :
    (s.cons t).result = s.result.map (t :: ·) := by
  unfold result cons
  cases s.fault with
  | none => rfl
  | some fault => rfl

namespace Stream

/-- What is left to do for a stream of a source: two for every unit ahead, and one for every
open block, the top level included. -/
def remaining (source : Text) (s : Stream) : Nat :=
  2 * (source.length - s.lexer.cursor.offset) + s.lexer.depth

/-- A loop over the tokens of a stream: it reads up to the end of the stream, which is included,
or to the first fault.  The number counts the calls that it makes. -/
inductive Loop : Stream → Nat → Except Fault (List Token) → Prop
  | ends {s after : Stream} {t : Token} (hnext : s.next = (.ok t, after))
      (hkind : t.kind = .endOfStream) : Loop s 1 (.ok [t])
  | fails {s after : Stream} {fault : Fault} (hnext : s.next = (.error fault, after)) :
      Loop s 1 (.error fault)
  | reads {s mid : Stream} {t : Token} {n : Nat} {result : Except Fault (List Token)}
      (hnext : s.next = (.ok t, mid)) (hkind : t.kind ≠ .endOfStream)
      (hrest : Loop mid n result) : Loop s (n + 1) (result.map (t :: ·))

/-! ## One call -/

/-- What remains is the weight of the lexer and the top level. -/
theorem remaining_eq {source : Text} {s : Stream} (hat : s.lexer.cursor.At source) :
    s.remaining source = s.lexer.weight + 1 := by
  have hsum := hat.offset_add_length
  unfold remaining Lexer.weight Lexer.depth
  omega

theorem remaining_next_lt {source : Text} {s after : Stream} {t : Token}
    (hat : s.lexer.cursor.At source) (h : s.next = (.ok t, after))
    (hkind : t.kind ≠ .endOfStream) : after.remaining source < s.remaining source := by
  rw [next_eq] at h
  have hstep : s.lexer.next = (.ok t, s.lexer.next.2) := Prod.ext (Prod.mk.inj h).1 rfl
  have hlt := Lexer.weight_next_lt hstep hkind
  rw [← (Prod.mk.inj h).2, remaining_eq hat, remaining_eq (Lexer.cursor_at_next hat hstep)]
  show s.lexer.next.2.weight + 1 < _
  omega

theorem remaining_ofSource (tag : Nat) (source : Text) :
    (Stream.ofSource tag source).remaining source = 2 * source.length + 1 := rfl

/-! ## The whole loop -/

/-- There is a loop that ends, and it gives the tokens or the fault of a scan. -/
theorem exists_loop (s : Stream) :
    ∃ n ≤ s.lexer.weight + 1, Loop s n s.lexer.scan.result := by
  generalize hlexer : s.lexer = lx
  -- The induction is the one of `scan`; each call takes off some weight.
  fun_induction Lexer.scan lx generalizing s with
  | case1 lx fault after hnext =>
    subst hlexer
    refine ⟨1, by omega, ?_⟩
    exact .fails (next_of_lexer hnext)
  | case2 lx t after hnext hkind =>
    subst hlexer
    refine ⟨1, by omega, ?_⟩
    exact .ends (next_of_lexer hnext) hkind
  | case3 lx t after hnext hkind ih =>
    subst hlexer
    have hlt := Lexer.weight_next_lt hnext hkind
    obtain ⟨n, hn, hloop⟩ := ih { s with lexer := after } rfl
    refine ⟨n + 1, by omega, ?_⟩
    rw [Scan.result_cons]
    exact .reads (next_of_lexer hnext) hkind hloop

end Stream

/-- Scanning a source ends.

* At any state that the operations lead to, every call that gives a token other than the end of
  the stream leaves less to do.
* So a loop over a source makes a bounded number of calls, and then it is at the end of the
  stream or at a fault; this gives the tokens of the source.
* A stream can be iterated from any state that the operations lead to, by no more calls than
  what remains there. -/
theorem scanning_ends (source : Text) :
    (∀ sources w i, Session.Operations (fun _ => True) (Session.ofSources sources) w →
      sources[i]? = some source → ∀ t after, (w.stream i).next = (.ok t, after) →
        t.kind ≠ .endOfStream → after.remaining source < (w.stream i).remaining source) ∧
    (∀ tag comments, ∃ n result, n ≤ 2 * source.length + 1 ∧
      Stream.Loop (Stream.ofSource tag source) n result ∧
      tokenize source comments = result.map (Token.keepComments comments)) ∧
    (∀ sources w i, Session.Operations (fun _ => True) (Session.ofSources sources) w →
      sources[i]? = some source → ∃ n result, n ≤ (w.stream i).remaining source ∧
        Stream.Loop (w.stream i) n result ∧
        (w.perform i (.iterate none)).1 = (result.map Answer.tokens).mapError .fault) := by
  refine ⟨?_, ?_, ?_⟩
  · intro sources w i hw hi t after hnext hkind
    exact Stream.remaining_next_lt (hw.at hi).now hnext hkind
  · intro tag comments
    have hat : (Stream.ofSource tag source).lexer.cursor.At source := ⟨0, Nat.zero_le _, rfl⟩
    obtain ⟨n, hn, hloop⟩ := (Stream.ofSource tag source).exists_loop
    rw [← Stream.remaining_eq hat, Stream.remaining_ofSource] at hn
    exact ⟨n, _, hn, hloop, rfl⟩
  · intro sources w i hw hi
    obtain ⟨n, hn, hloop⟩ := (w.stream i).exists_loop
    rw [← Stream.remaining_eq (hw.at hi).now] at hn
    exact ⟨n, _, hn, hloop, rfl⟩

/-- A line that closes a block and then opens another one is reached.  The first of the two calls
moves nothing, and still one less remains. -/
theorem scanning_ends_close_and_open :
    let source : Text := "a\n b\n \t\tc\n \td"
    let w := ((Session.ofSources [source]).perform 0 (.iterate (some 8))).2
    let dedent : Token := ⟨.dedent, [CodeUnit.space], ⟨⟨4, 0, 10⟩, ⟨4, 0, 10⟩⟩⟩
    let closed := (w.stream 0).next.2
    Session.Operations (fun _ => True) (Session.ofSources [source]) w ∧
      (w.stream 0).next = (.ok dedent, closed) ∧
      closed.lexer.cursor = (w.stream 0).lexer.cursor ∧
      (w.stream 0).remaining source = 9 ∧ closed.remaining source < 9 ∧
      ∃ n result, n ≤ 9 ∧ Stream.Loop (w.stream 0) n result ∧
        (w.perform 0 (.iterate none)).1 = (result.map Answer.tokens).mapError .fault := by
  intro source w dedent closed
  have hw : Session.Operations (fun _ => True) (Session.ofSources [source]) w :=
    .single (.move (.act 0 trivial))
  have htoken : (w.stream 0).next.1 = .ok dedent := by decide +kernel
  have hcursor : closed.lexer.cursor = (w.stream 0).lexer.cursor := by decide +kernel
  have hremaining : (w.stream 0).remaining source = 9 := by decide +kernel
  clear_value w
  have hnext : (w.stream 0).next = (.ok dedent, closed) := Prod.ext htoken rfl
  obtain ⟨hstep, -, hiterate⟩ := scanning_ends source
  have hlt := hstep [source] w 0 hw rfl dedent closed hnext nofun
  have hloop := hiterate [source] w 0 hw rfl
  rw [hremaining] at hlt hloop
  exact ⟨hw, hnext, hcursor, hremaining, hlt, hloop⟩

end SceneTokens
