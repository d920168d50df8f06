import Mana.Parse

/-! How the basic steps of a parser run when another step follows, and the induction along the tokens ahead. -/
namespace Mana

theorem TokenStream.induct {motive : TokenStream → Prop}
    (fewer : ∀ stream : TokenStream, (∀ rest : TokenStream, rest.count < stream.count → motive rest) → motive stream)
    (stream : TokenStream) : motive stream :=
  (measure TokenStream.count).wf.induction stream fewer

namespace Step

variable {step : Step α} {rest : TokenStream} {found : List Diagnostic}

@[simp] theorem map_id (step : Step α) : step.map id = step := by
  obtain ⟨outcome, _, _⟩ := step
  cases outcome <;> rfl

theorem map_done_cases (ran : step.map change = ⟨.done final, rest, found⟩) :
    ∃ result, step = ⟨.done result, rest, found⟩ ∧ change result = final := by
  obtain ⟨outcome, _, _⟩ := step
  cases outcome with
  | done result =>
    cases ran
    exact ⟨result, rfl, rfl⟩
  | failed => cases ran
  | struck => cases ran

theorem map_failed_cases (ran : step.map change = ⟨.failed, rest, found⟩) :
    step = ⟨.failed, rest, found⟩ := by
  obtain ⟨outcome, _, _⟩ := step
  cases outcome with
  | done result => cases ran
  | failed =>
    cases ran
    rfl
  | struck => cases ran

end Step

namespace Parse

theorem ext {parse other : Parse α} (same : ∀ stream, parse.run stream = other.run stream) :
    parse = other := congrArg Parse.mk (funext same)

variable (stream : TokenStream)

@[simp] theorem run_current_bind (follow : Token → Parse α) :
    (current >>= follow).run stream = (follow stream.current).run stream := rfl

@[simp] theorem run_upcoming_bind (follow : Token → Parse α) :
    (upcoming >>= follow).run stream = (follow stream.upcoming).run stream := rfl

@[simp] theorem run_position_bind (follow : TokenStream → Parse α) :
    (position >>= follow).run stream = (follow stream).run stream := rfl

@[simp] theorem run_fail : (fail : Parse α).run stream = ⟨.failed, stream, []⟩ := rfl

variable {stream}

/-- Two steps in a row are done only if both are. -/
theorem andThen_done_cases {step : Step α} {next : α → TokenStream → Step β}
    (ran : step.andThen next = ⟨.done final, last, found⟩) :
    ∃ result rest own later, step = ⟨.done result, rest, own⟩ ∧
      next result rest = ⟨.done final, last, later⟩ ∧ found = own ++ later := by
  obtain ⟨outcome, rest, own⟩ := step
  cases outcome with
  | failed => cases ran
  | struck => cases ran
  | done result =>
    rcases later : next result rest with ⟨outcome, _, more⟩
    rw [Step.andThen_done, later] at ran
    cases ran
    exact ⟨result, rest, own, more, rfl, later, rfl⟩

/-- Two steps in a row fail only if one of them does. -/
theorem andThen_failed_cases {step : Step α} {next : α → TokenStream → Step β}
    (ran : step.andThen next = ⟨.failed, last, found⟩) :
    step = ⟨.failed, last, found⟩ ∨
      ∃ result rest own later, step = ⟨.done result, rest, own⟩ ∧ next result rest = ⟨.failed, last, later⟩ := by
  obtain ⟨outcome, rest, own⟩ := step
  cases outcome with
  | failed =>
    cases ran
    exact .inl rfl
  | struck => cases ran
  | done result =>
    rcases later : next result rest with ⟨outcome, _, more⟩
    rw [Step.andThen_done, later] at ran
    cases ran
    exact .inr ⟨result, rest, own, more, rfl, later⟩

theorem bind_done_cases {parse : Parse α} {follow : α → Parse β}
    (ran : (parse >>= follow).run stream = ⟨.done final, last, found⟩) :
    ∃ result rest own later, parse.run stream = ⟨.done result, rest, own⟩ ∧
      (follow result).run rest = ⟨.done final, last, later⟩ ∧ found = own ++ later :=
  andThen_done_cases ran

/-- A step that is done hands over to the one that follows. -/
theorem run_bind_done {parse : Parse α} (ran : parse.run stream = ⟨.done result, rest, found⟩)
    (follow : α → Parse β) :
    (parse >>= follow).run stream = ((follow result).run rest).since found := by
  rw [run_bind, ran, Step.andThen_done]

theorem run_attempt_done {parse : Parse α} (ran : parse.run stream = ⟨.done result, rest, found⟩) :
    (attempt parse).run stream = ⟨.done (some result), rest, found⟩ := by
  simp only [attempt, ran]

theorem run_attempt_failed {parse : Parse α} (ran : parse.run stream = ⟨.failed, rest, found⟩) :
    (attempt parse).run stream = ⟨.done none, rest, found⟩ := by
  simp only [attempt, ran]

theorem run_attempt_struck {parse : Parse α} (ran : parse.run stream = ⟨.struck, rest, found⟩) :
    (attempt parse).run stream = ⟨.struck, rest, found⟩ := by
  simp only [attempt, ran]

/-- What is attempted does not fail. -/
theorem run_attempt_ne_failed (parse : Parse α) : (attempt parse).run stream ≠ ⟨.failed, rest, found⟩ := by
  simp only [attempt]
  split
  all_goals
    intro ran
    cases ran

/-- What is not struck needs no remedy. -/
theorem run_orWhenStruck_done {parse : Parse α} (ran : parse.run stream = ⟨.done result, rest, found⟩)
    (remedy : Parse α) : (orWhenStruck parse remedy).run stream = ⟨.done result, rest, found⟩ := by
  simp only [orWhenStruck, ran]

theorem run_orWhenStruck_struck {parse : Parse α} (ran : parse.run stream = ⟨.struck, rest, found⟩)
    (remedy : Parse α) : (orWhenStruck parse remedy).run stream = (remedy.run rest).since found := by
  simp only [orWhenStruck, ran]

/-- A round of a loop ends it with a result as described, or goes on from a state that keeps the invariant,
after a token was passed. -/
def Round.Passes (holds : σ → Prop) (post : α → Prop) (stream : TokenStream) : Round σ α → TokenStream → Prop
  | .stop result, _ => post result
  | .again next finish, rest =>
    holds next ∧ rest.count < stream.count ∧ ∀ result, post result → post (finish result)

/-- A round of a collection finds an item as described, and passes a token whenever it goes on. -/
def Gain.Passes (post : α → Prop) (stream : TokenStream) : Gain α → TokenStream → Prop
  | .stop, _ => True
  | .nothing, rest => rest.count < stream.count
  | .item value, rest => post value ∧ rest.count < stream.count

/-- The rounds of a loop pass a token whenever they go on. -/
def RoundsPass (round : σ → Parse (Round σ α)) : Prop :=
  ∀ ⦃state stream next finish rest found⦄, (round state).run stream = ⟨.done (.again next finish), rest, found⟩ →
    rest.count < stream.count

/-- The rounds of a collection pass a token whenever they go on. -/
def GainsPass (round : Parse (Gain α)) : Prop :=
  ∀ ⦃stream gain rest found⦄, round.run stream = ⟨.done gain, rest, found⟩ → Gain.Passes (fun _ => True) stream gain rest

/-- A collection is a loop whose rounds pass a token as those of the collection do. -/
theorem GainsPass.rounds {round : Parse (Gain α)} (passes : GainsPass round) :
    RoundsPass (σ := Unit) fun _ => do
      match ← round with
      | .stop => return .stop []
      | .nothing => return .again () id
      | .item value => return .again () (value :: ·) := by
  intro _ stream next finish rest found ran
  obtain ⟨gain, middle, own, later, first, second, _⟩ := bind_done_cases ran
  cases gain with
  | stop => cases second
  | nothing =>
    cases second
    exact passes first
  | item value =>
    cases second
    exact (passes first).2

/-- A collection is its first round and, where that goes on, the collection from there. -/
theorem run_collect (round : Parse (Gain α)) (stream : TokenStream) :
    (collect round).run stream = (round.run stream).andThen fun gain rest => match gain with
      | .stop => ⟨.done [], rest, []⟩
      | .nothing => if rest.count < stream.count then (collect round).run rest else ⟨.struck, rest, []⟩
      | .item value =>
        if rest.count < stream.count then ((collect round).run rest).map (value :: ·)
        else ⟨.struck, rest, []⟩ := by
  rw [collect, run_iterate, run_bind, Step.andThen_assoc]
  congr 1
  funext gain rest
  cases gain with
  | stop => rfl
  | nothing =>
    simp only [run_pure, Step.andThen_done, Step.since_nil]
    split
    · exact Step.map_id _
    · rfl
  | item value => rfl

/-- A collection that is done was ended by a round that stopped. -/
theorem collect_stopped {round : Parse (Gain α)} {ended : TokenStream → Prop}
    (each : ∀ stream rest found, round.run stream = ⟨.done .stop, rest, found⟩ → ended rest)
    (ran : (collect round).run stream = ⟨.done items, rest, found⟩) : ended rest := by
  induction stream using TokenStream.induct generalizing items found with
  | fewer stream ih =>
    rw [run_collect] at ran
    obtain ⟨gain, middle, own, later, first, second, _⟩ := andThen_done_cases ran
    cases gain with
    | stop =>
      cases second
      exact each stream _ own first
    | nothing =>
      simp only at second
      split at second
      · rename_i shorter
        exact ih middle shorter second
      · cases second
    | item value =>
      simp only at second
      split at second
      · rename_i shorter
        obtain ⟨others, collected, _⟩ := Step.map_done_cases second
        exact ih middle shorter collected
      · cases second

/-- A collection fails where a round of it does. -/
theorem collect_failed {round : Parse (Gain α)} {ended : TokenStream → Prop}
    (each : ∀ stream rest found, round.run stream = ⟨.failed, rest, found⟩ → ended rest)
    (ran : (collect round).run stream = ⟨.failed, rest, found⟩) : ended rest := by
  induction stream using TokenStream.induct generalizing found with
  | fewer stream ih =>
    rw [run_collect] at ran
    rcases andThen_failed_cases ran with first | ⟨gain, middle, own, later, first, second⟩
    · exact each stream rest found first
    · cases gain with
      | stop => cases second
      | nothing =>
        simp only at second
        split at second
        · rename_i shorter
          exact ih middle shorter second
        · cases second
      | item value =>
        simp only at second
        split at second
        · rename_i shorter
          exact ih middle shorter (Step.map_failed_cases second)
        · cases second

end Parse

end Mana
