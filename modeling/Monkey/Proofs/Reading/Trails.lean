import Monkey.Proofs.Reading.Bounds

/-!
Which tokens a reader takes. It takes them one at a time from the front, so none is left out and
none comes twice; only the end of the text may be taken again and again. What was noted before makes
no difference to it.
-/

namespace Monkey.Reading

/-- In a run from this stream the reader takes these tokens, the earliest first. -/
inductive Takes : {α : Type} → Reading α → Stream → List Token → Prop
  | pure {α : Type} (value : α) (stream : Stream) : Takes (Pure.pure value : Reading α) stream []
  | fail {α : Type} (stream : Stream) : Takes (fail : Reading α) stream []
  | peek (stream : Stream) : Takes peek stream []
  | take (stream : Stream) : Takes take stream [stream.next]
  | note (problem : Problem) (stream : Stream) : Takes (note problem) stream []
  | refuse (stream : Stream) : Takes refuse stream []
  | attempt {α : Type} {reader : Reading α} {stream : Stream} {taken : List Token}
      (inner : Takes reader stream taken) : Takes (attempt reader) stream taken
  | cutShort {α β : Type} {first : Reading α} {next : α → Reading β} {stream later : Stream}
      {taken : List Token} (start : Takes first stream taken)
      (outcome : first stream = (none, later)) : Takes (first >>= next) stream taken
  | bind {α β : Type} {first : Reading α} {next : α → Reading β} {stream later : Stream} {value : α}
      {taken more : List Token} (start : Takes first stream taken)
      (outcome : first stream = (some value, later)) (further : Takes (next value) later more) :
      Takes (first >>= next) stream (taken ++ more)

theorem Composed.exists_takes {α : Type} {reader : Reading α} (composed : Composed reader)
    (stream : Stream) : ∃ taken, Takes reader stream taken := by
  induction composed generalizing stream with
  | pure value => exact ⟨[], .pure value stream⟩
  | fail => exact ⟨[], .fail stream⟩
  | peek => exact ⟨[], .peek stream⟩
  | take => exact ⟨[stream.next], .take stream⟩
  | note problem => exact ⟨[], .note problem stream⟩
  | refuse => exact ⟨[], .refuse stream⟩
  | attempt _ ih =>
    obtain ⟨taken, takes⟩ := ih stream
    exact ⟨taken, .attempt takes⟩
  | @bind _ _ first next _ _ start further =>
    obtain ⟨taken, takes⟩ := start stream
    cases outcome : first stream with
    | mk result later =>
      cases result with
      | none => exact ⟨taken, .cutShort takes outcome⟩
      | some value =>
        obtain ⟨more, takes'⟩ := further value later
        exact ⟨taken ++ more, .bind takes outcome takes'⟩

/-- The tokens that are not the end of the text. -/
def solid (tokens : List Token) : List Token := tokens.filter fun token => token.kind ≠ .eof

theorem solid_of_inside {tokens : List Token} (inside : ∀ token ∈ tokens, token.kind ≠ .eof) :
    solid tokens = tokens :=
  List.filter_eq_self.mpr fun token member => decide_eq_true (inside token member)

/-- The tokens that are taken and those that are left make up what there was. -/
theorem Takes.ahead_eq {α : Type} {reader : Reading α} {stream : Stream} {taken : List Token}
    (takes : Takes reader stream taken) (inside : ∀ token ∈ stream.ahead, token.kind ≠ .eof) :
    solid taken ++ (reader stream).2.ahead = stream.ahead := by
  induction takes with
  | pure | fail | peek | note | refuse => rfl
  | take stream =>
    change solid [stream.next] ++ stream.ahead.tail = stream.ahead
    unfold Stream.next
    cases ahead : stream.ahead with
    | nil => rfl
    | cons token rest =>
      have kept : solid [token] = [token] := solid_of_inside fun other member => by
        obtain rfl := List.mem_singleton.mp member
        exact inside other (ahead ▸ List.mem_cons_self)
      exact congrArg (· ++ rest) kept
  | attempt _ ih => exact ih inside
  | cutShort _ outcome ih =>
    have start := ih inside
    rw [outcome] at start
    rwa [bind_none outcome]
  | @bind _ _ first next stream later value taken more _ outcome _ start further =>
    have begun := start inside
    rw [outcome] at begun
    have rest := further fun token member =>
      inside token (begun ▸ List.mem_append_right _ member)
    rw [bind_some outcome, ← begun, ← rest]
    unfold solid
    rw [List.filter_append, List.append_assoc]

/-- What was noted earlier stays below what is noted, and is never looked at. -/
theorem Composed.frame {α : Type} {reader : Reading α} (composed : Composed reader)
    (stream : Stream) (earlier : List Problem) :
    reader { stream with problems := stream.problems ++ earlier } =
      ((reader stream).1,
        { (reader stream).2 with problems := (reader stream).2.problems ++ earlier }) := by
  induction composed generalizing stream with
  | pure | fail | peek | take | note | refuse => rfl
  | attempt _ ih => exact congrArg (fun outcome => (some outcome.1, outcome.2)) (ih stream)
  | @bind _ _ first next _ _ start further =>
    have begun := start stream
    cases outcome : first stream with
    | mk result later =>
      rw [outcome] at begun
      cases result with
      | none => rw [bind_none begun, bind_none outcome]
      | some value =>
        rw [bind_some begun, bind_some outcome]
        exact further value later

instance (count : Nat) : Composed (text count) := by
  unfold text
  infer_instance

end Monkey.Reading
