import Mana.Proofs.Nesting.Limit
import Mana.Proofs.Tree.Blocks

/-! Steps that are candid about faults. A candid step complains last about a token in view where it fails, and about
nothing where its result has no block of its own. -/
namespace Mana

/-- Where the step fails, its last diagnostic is located at one of the two tokens in view. -/
def Step.Explains (step : Step α) : Prop :=
  step.outcome = .failed → ∃ earlier last, step.found = earlier ++ [last] ∧
    (last.location = step.rest.current.location ∨ last.location = step.rest.upcoming.location)

/-- The step explains its failure. Where it is done, its result has at least the blocks that were there before, and if
it has no more than those, then nothing was found. -/
structure Step.Candid (step : Step α) (before : Nat) (blocks : α → Nat) : Prop where
  explains : step.Explains
  grown : ∀ result, step.outcome = .done result → before ≤ blocks result
  clear : ∀ result, step.outcome = .done result → blocks result = before → step.found = []

namespace Step.Explains

variable {rest : TokenStream} {found : List Diagnostic}

theorem done {result : α} : (⟨.done result, rest, found⟩ : Step α).Explains := nofun

theorem struck : (⟨.struck, rest, found⟩ : Step α).Explains := nofun

theorem since {step : Step α} (explains : step.Explains) : (step.since found).Explains := by
  intro failed
  obtain ⟨earlier, last, split, located⟩ := explains failed
  exact ⟨found ++ earlier, last, by rw [found_since, split, List.append_assoc], located⟩

theorem andThen {step : Step α} {next : α → TokenStream → Step β} (first : step.Explains)
    (second : ∀ result rest, (next result rest).Explains) : (step.andThen next).Explains := by
  obtain ⟨outcome, rest, found⟩ := step
  cases outcome with
  | done result => exact (second result rest).since
  | failed => exact fun _ => first rfl
  | struck => exact struck

theorem map {step : Step α} (explains : step.Explains) (change : α → β) : (step.map change).Explains := by
  obtain ⟨outcome, rest, found⟩ := step
  cases outcome with
  | done result => exact done
  | failed => exact fun _ => explains rfl
  | struck => exact struck

open Parse in
/-- A complaint about the current token, and a failure. -/
theorem refusal (fault : Fault) {stream : TokenStream} (found : stream.current = token) :
    ((complain fault token >>= fun _ => (fail : Parse α)).run stream).Explains :=
  fun _ => ⟨[], ⟨fault, token.location⟩, rfl, .inl (congrArg Token.location found.symm)⟩

end Step.Explains

namespace Step.Candid

variable {before : Nat} {rest : TokenStream} {found : List Diagnostic}

theorem done {result : α} {blocks : α → Nat} (same : blocks result = before) :
    (⟨.done result, rest, []⟩ : Step α).Candid before blocks where
  explains := .done
  grown := by
    rintro _ ⟨⟩
    exact Nat.le_of_eq same.symm
  clear := fun _ _ _ => rfl

theorem struck {blocks : α → Nat} : (⟨.struck, rest, found⟩ : Step α).Candid before blocks := ⟨.struck, nofun, nofun⟩

theorem failed {step : Step α} {blocks : α → Nat} (explains : step.Explains) (failed : step.outcome = .failed) :
    step.Candid before blocks :=
  ⟨explains, fun _ done => (nomatch failed.symm.trans done), fun _ done => (nomatch failed.symm.trans done)⟩

theorem andThen {step : Step α} {middle : α → Nat} {blocks : β → Nat} {next : α → TokenStream → Step β}
    (first : step.Candid before middle) (second : ∀ result rest, (next result rest).Candid (middle result) blocks) :
    (step.andThen next).Candid before blocks := by
  refine ⟨first.explains.andThen fun result rest => (second result rest).explains, ?_, ?_⟩
  all_goals
    obtain ⟨outcome, rest, found⟩ := step
    intro final ended
    cases outcome with
    | failed => cases ended
    | struck => cases ended
    | done result => ?_
  · exact Nat.le_trans (first.grown result rfl) ((second result rest).grown final ended)
  · intro same
    have former := first.grown result rfl
    have latter := (second result rest).grown final ended
    have own : found = [] := first.clear result rfl (by omega)
    have later : (next result rest).found = [] := (second result rest).clear final ended (by omega)
    rw [andThen_done, found_since, own, later]
    rfl

theorem add {step : Step α} {blocks : α → Nat} (candid : step.Candid before blocks) (more : Nat) :
    step.Candid (more + before) fun result => more + blocks result where
  explains := candid.explains
  grown result ended := Nat.add_le_add_left (candid.grown result ended) more
  clear result ended same := candid.clear result ended (Nat.add_left_cancel same)

theorem map {step : Step α} {change : α → β} {blocks : β → Nat}
    (candid : step.Candid before fun result => blocks (change result)) :
    (step.map change).Candid before blocks := by
  obtain ⟨outcome, rest, found⟩ := step
  cases outcome with
  | failed => exact .failed (candid.explains.map change) rfl
  | struck => exact .struck
  | done result =>
    refine ⟨.done, ?_, ?_⟩
    all_goals
      rintro _ ⟨⟩
    · exact candid.grown result rfl
    · exact candid.clear result rfl

end Step.Candid

namespace Parse

/-- The steps of the parser explain their failures, from wherever they begin. -/
def Explains (parse : Parse α) : Prop := ∀ stream, (parse.run stream).Explains

/-- The steps of the parser are candid, from wherever they begin. -/
def Candid (parse : Parse α) (before : Nat) (blocks : α → Nat) : Prop :=
  ∀ stream, (parse.run stream).Candid before blocks

namespace Explains

theorem pure (result : α) : (pure result : Parse α).Explains := fun _ => .done

theorem position : position.Explains := fun _ => .done

theorem current : current.Explains := fun _ => .done

theorem advance : advance.Explains := fun _ => .done

theorem attempt (parse : Parse α) : (attempt parse).Explains := by
  intro stream failed
  rcases observed : (Parse.attempt parse).run stream with ⟨outcome, rest, found⟩
  rw [observed] at failed
  cases failed
  exact absurd observed (run_attempt_ne_failed parse)

theorem bind {first : Parse α} {second : α → Parse β} (former : first.Explains)
    (latter : ∀ result, (second result).Explains) : (first >>= second).Explains :=
  fun stream => (former stream).andThen fun result rest => latter result rest

theorem collect {round : Parse (Gain α)} (each : round.Explains) : (collect round).Explains := by
  intro stream
  induction stream using TokenStream.induct with
  | fewer stream ih =>
    rw [run_collect]
    apply (each stream).andThen
    intro gain rest
    by_cases shorter : rest.count < stream.count
    · have later := ih rest shorter
      cases gain with
      | stop => exact .done
      | nothing => simpa only [shorter, ↓reduceIte] using later
      | item value => simpa only [shorter, ↓reduceIte] using later.map (value :: ·)
    · cases gain with
      | stop => exact .done
      | nothing => simpa only [shorter, ↓reduceIte] using .struck
      | item value => simpa only [shorter, ↓reduceIte] using .struck

end Explains

namespace Candid

variable {before : Nat} {blocks : α → Nat}

theorem pure {result : α} (same : blocks result = before) : (pure result : Parse α).Candid before blocks :=
  fun _ => .done same

theorem current : current.Candid before fun _ => before := fun _ => .done rfl

theorem upcoming : upcoming.Candid before fun _ => before := fun _ => .done rfl

theorem advance : advance.Candid before fun _ => before := fun _ => .done rfl

theorem bind {first : Parse α} {second : α → Parse β} {middle : α → Nat} {blocks : β → Nat}
    (former : first.Candid before middle) (latter : ∀ result, (second result).Candid (middle result) blocks) :
    (first >>= second).Candid before blocks :=
  fun stream => (former stream).andThen fun result rest => latter result rest

theorem add {parse : Parse α} (candid : parse.Candid before blocks) (more : Nat) :
    parse.Candid (more + before) fun result => more + blocks result :=
  fun stream => (candid stream).add more

/-- Who adds a block anyway need not account for what was found. -/
theorem owing {parse : Parse α} (explains : parse.Explains) (more : ∀ result, before < blocks result) :
    parse.Candid before blocks :=
  fun stream => ⟨explains stream, fun result _ => Nat.le_of_lt (more result),
    fun result _ none => absurd none (Nat.ne_of_gt (more result))⟩

/-- The blocks that a round of a collection finds. -/
def gained : Gain Node → Nat
  | .stop | .nothing => 0
  | .item node => node.blocks

theorem collect {round : Parse (Gain Node)} (each : round.Candid 0 gained) :
    (collect round).Candid 0 Node.blocksOf := by
  intro stream
  induction stream using TokenStream.induct with
  | fewer stream ih =>
    rw [run_collect]
    apply (each stream).andThen
    intro gain rest
    by_cases shorter : rest.count < stream.count
    · have later := ih rest shorter
      cases gain with
      | stop => exact .done rfl
      | nothing => simpa only [shorter, ↓reduceIte, gained] using later
      | item node =>
        have longer : ((Parse.collect round).run rest).Candid node.blocks
            fun nodes => Node.blocksOf (node :: nodes) := by
          simpa only [Node.blocksOf_cons, Nat.add_zero] using later.add node.blocks
        simpa only [shorter, ↓reduceIte, gained] using longer.map
    · cases gain with
      | stop => exact .done rfl
      | nothing => simpa only [shorter, ↓reduceIte] using .struck
      | item value => simpa only [shorter, ↓reduceIte] using .struck

end Candid

end Parse

end Mana
