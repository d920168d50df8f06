import Mana.Proofs.Parse.Run
import Mana.Proofs.Parse.Strikes
import Mana.Proofs.Token.Left

/-! What a step does with an input, from whatever stream has that input left: it reads a part of it
without a diagnostic, or it rejects one of its tokens. -/
namespace Mana

/-- A step is a strict one, or goes on where the strict one is not done. -/
def Step.Resumes (step strict : Step α) : Prop :=
  step = strict ∨ (∀ result, strict.outcome ≠ .done result) ∧
    (∃ later, step.found = strict.found ++ later) ∧ (strict.outcome = .struck → step.Strikes)

theorem Step.Resumes.strikes {step strict : Step α} (resumes : step.Resumes strict)
    (strikes : strict.Strikes) : step.Strikes := by
  rcases resumes with same | ⟨_, ⟨later, found⟩, caught⟩
  · exact same ▸ strikes
  · rcases strikes with struck | ⟨diagnostic, member, deep⟩
    · exact caught struck
    · exact .inr ⟨diagnostic, found ▸ List.mem_append_left _ member, deep⟩

namespace Parse

/-- The step is done with the result, finds nothing wrong, and leaves the output. -/
def Reads (parse : Parse α) (before after : Stage) (input : List Token) (result : α)
    (output : List Token) : Prop :=
  ∀ stream : TokenStream, stream.left before = input →
    ∃ rest, parse.run stream = ⟨.done result, rest, []⟩ ∧ rest.left after = output

/-- The first diagnostic of the step is at the offending token. -/
def Rejects (parse : Parse α) (before : Stage) (input : List Token) (offender : Token) : Prop :=
  ∀ stream : TokenStream, stream.left before = input →
    ∃ fault others, (parse.run stream).found = ⟨fault, offender.location⟩ :: others

variable {before middle after : Stage} {input between output : List Token} {offender : Token}

theorem found_andThen (step : Step α) (next : α → TokenStream → Step β) :
    ∃ later, (step.andThen next).found = step.found ++ later := by
  obtain ⟨outcome, rest, found⟩ := step
  cases outcome with
  | done result => exact ⟨(next result rest).found, rfl⟩
  | failed => exact ⟨[], (List.append_nil _).symm⟩
  | struck => exact ⟨[], (List.append_nil _).symm⟩

namespace Reads

theorem pure (result : α) (stage : Stage) (input : List Token) :
    (pure result : Parse α).Reads stage stage input result input :=
  fun stream same => ⟨stream, rfl, same⟩

theorem bind {parse : Parse α} {follow : α → Parse β} {final : β}
    (first : parse.Reads before middle input result between)
    (second : (follow result).Reads middle after between final output) :
    (parse >>= follow).Reads before after input final output := by
  intro stream same
  obtain ⟨rest, ran, left⟩ := first stream same
  obtain ⟨last, ran', left'⟩ := second rest left
  exact ⟨last, by rw [run_bind_done ran, Step.since_nil, ran'], left'⟩

theorem take {parse : Parse α} (reads : parse.Reads .read after (follower :: more) result output)
    (token : Token) : parse.Reads .due after (token :: follower :: more) result output :=
  fun stream same => reads stream (stream.tokens_advanced same)

theorem current (token : Token) (more : List Token) :
    current.Reads .due .due (token :: more) token (token :: more) :=
  fun stream same => ⟨stream, by rw [← stream.next_eq same]; rfl, same⟩

theorem upcoming (token : Token) (more : List Token) :
    upcoming.Reads .read .read (token :: more) token (token :: more) :=
  fun stream same => ⟨stream, by rw [← stream.next_eq same]; rfl, same⟩

theorem advance (input : List Token) : advance.Reads .read .due input () input :=
  fun stream same => ⟨stream.advanced, rfl, same⟩

theorem resumed {parse strict : Parse α} (reads : strict.Reads before after input result output)
    (resumes : ∀ stream, (parse.run stream).Resumes (strict.run stream)) :
    parse.Reads before after input result output := by
  intro stream same
  obtain ⟨rest, ran, left⟩ := reads stream same
  rcases resumes stream with equal | ⟨unfinished, _⟩
  · exact ⟨rest, equal.trans ran, left⟩
  · exact absurd (congrArg Step.outcome ran) (unfinished result)

variable {round : σ → Parse (Round σ α)}

/-- A loop whose first round is its last. -/
theorem iterate_stop (first : (round state).Reads before after input (.stop result) output) :
    (iterate round state).Reads before after input result output := by
  intro stream same
  obtain ⟨rest, ran, left⟩ := first stream same
  exact ⟨rest, by rw [run_iterate, ran]; rfl, left⟩

theorem iterate_again (first : (round state).Reads before before input (.again next finish) between)
    (shorter : between.length < input.length)
    (later : (iterate round next).Reads before before between result output) :
    (iterate round state).Reads before before input (finish result) output := by
  intro stream same
  obtain ⟨rest, ran, left⟩ := first stream same
  obtain ⟨last, ran', left'⟩ := later rest left
  have progress : rest.count < stream.count :=
    TokenStream.count_lt_of_left (left ▸ same ▸ shorter)
  refine ⟨last, ?_, left'⟩
  rw [run_iterate, ran, Step.andThen_done]
  simp only [progress, ↓reduceIte, ran', Step.map, Step.since_nil]

end Reads

namespace Rejects

theorem complain (fault : Fault) (stage : Stage) (offender : Token) (more : List Token) :
    (complain fault offender >>= fun _ => (fail : Parse α)).Rejects stage (offender :: more) offender :=
  fun _ _ => ⟨fault, [], rfl⟩

theorem bind {parse : Parse α} (rejects : parse.Rejects before input offender) (follow : α → Parse β) :
    (parse >>= follow).Rejects before input offender := by
  intro stream same
  obtain ⟨fault, others, found⟩ := rejects stream same
  obtain ⟨later, extended⟩ := found_andThen (parse.run stream) fun result => (follow result).run
  exact ⟨fault, others ++ later, by rw [run_bind, extended, found, List.cons_append]⟩

theorem bind_reads {parse : Parse α} {follow : α → Parse β}
    (first : parse.Reads before middle input result between)
    (second : (follow result).Rejects middle between offender) :
    (parse >>= follow).Rejects before input offender := by
  intro stream same
  obtain ⟨rest, ran, left⟩ := first stream same
  obtain ⟨fault, others, found⟩ := second rest left
  exact ⟨fault, others, by rw [run_bind_done ran, Step.since_nil, found]⟩

theorem take {parse : Parse α} (rejects : parse.Rejects .read (follower :: more) offender)
    (token : Token) : parse.Rejects .due (token :: follower :: more) offender :=
  fun stream same => rejects stream (stream.tokens_advanced same)

theorem resumed {parse strict : Parse α} (rejects : strict.Rejects before input offender)
    (resumes : ∀ stream, (parse.run stream).Resumes (strict.run stream)) :
    parse.Rejects before input offender := by
  intro stream same
  obtain ⟨fault, others, found⟩ := rejects stream same
  rcases resumes stream with equal | ⟨_, ⟨later, extended⟩, _⟩
  · exact ⟨fault, others, equal ▸ found⟩
  · exact ⟨fault, others ++ later, by rw [extended, found, List.cons_append]⟩

variable {round : σ → Parse (Round σ α)}

theorem iterate (rejects : (round state).Rejects before input offender) :
    (iterate round state).Rejects before input offender := by
  intro stream same
  obtain ⟨fault, others, found⟩ := rejects stream same
  rw [run_iterate]
  obtain ⟨later, extended⟩ := found_andThen ((round state).run stream) _
  exact ⟨fault, others ++ later, by rw [extended, found, List.cons_append]⟩

theorem iterate_again (first : (round state).Reads before before input (.again next finish) between)
    (shorter : between.length < input.length)
    (later : (Parse.iterate round next).Rejects before between offender) :
    (Parse.iterate round state).Rejects before input offender := by
  intro stream same
  obtain ⟨rest, ran, left⟩ := first stream same
  obtain ⟨fault, others, found⟩ := later rest left
  have progress : rest.count < stream.count :=
    TokenStream.count_lt_of_left (left ▸ same ▸ shorter)
  refine ⟨fault, others, ?_⟩
  rw [run_iterate, ran, Step.andThen_done]
  simp only [progress, ↓reduceIte, Step.since_nil]
  rcases observed : (Parse.iterate round next).run rest with ⟨outcome, _, own⟩
  rw [observed] at found
  cases outcome <;> exact found

end Rejects

end Parse

end Mana
