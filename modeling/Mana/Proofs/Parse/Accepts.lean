import Mana.Proofs.Parse.Reads

/-! Steps that accept what is ahead: unless they strike the limit on nesting, they are done without a
diagnostic. -/
namespace Mana

namespace Parse

/-- A round of a loop leaves a stream from which the loop goes on, or one at which it has ended. -/
def Round.Leads (going ended : TokenStream → Prop) : Round σ α → TokenStream → Prop
  | .stop _, rest => ended rest
  | .again _ _, rest => going rest

/-- A round of a collection leaves a stream from which it goes on, or one at which it has ended. -/
def Gain.Leads (going ended : TokenStream → Prop) : Gain α → TokenStream → Prop
  | .stop, rest => ended rest
  | .nothing, _ => False
  | .item _, rest => going rest

end Parse

/-- Unless the step strikes, it finds nothing wrong, and its result and the stream it leaves are as
described. -/
def Step.Accepts (step : Step α) (post : α → TokenStream → Prop) : Prop :=
  step.Strikes ∨ ∃ result rest, step = ⟨.done result, rest, []⟩ ∧ post result rest

namespace Step.Accepts

variable {stream rest : TokenStream}

theorem done {post : α → TokenStream → Prop} (holds : post result rest) :
    (⟨.done result, rest, []⟩ : Step α).Accepts post := .inr ⟨result, rest, rfl, holds⟩

theorem imp {step : Step α} {post weaker : α → TokenStream → Prop} (accepts : step.Accepts post)
    (implies : ∀ result rest, post result rest → weaker result rest) : step.Accepts weaker := by
  rcases accepts with strikes | ⟨result, rest, same, holds⟩
  · exact .inl strikes
  · exact .inr ⟨result, rest, same, implies result rest holds⟩

/-- What holds of a step wherever it is done without a diagnostic holds where it accepts. -/
theorem ensured {step : Step α} {post ensured : α → TokenStream → Prop} (accepts : step.Accepts post)
    (ensures : ∀ result rest, step = ⟨.done result, rest, []⟩ → ensured result rest) :
    step.Accepts fun result rest => post result rest ∧ ensured result rest := by
  rcases accepts with strikes | ⟨result, rest, rfl, holds⟩
  · exact .inl strikes
  · exact .done ⟨holds, ensures result rest rfl⟩

theorem andThen {step : Step α} {middle : α → TokenStream → Prop} {post : β → TokenStream → Prop}
    {next : α → TokenStream → Step β} (first : step.Accepts middle)
    (second : ∀ result rest, middle result rest → (next result rest).Accepts post) :
    (step.andThen next).Accepts post := by
  rcases first with strikes | ⟨result, rest, rfl, holds⟩
  · exact .inl (strikes.andThen next)
  · rw [andThen_done, since_nil]
    exact second result rest holds

theorem map {step : Step α} {post : β → TokenStream → Prop} {change : α → β}
    (accepts : step.Accepts fun result rest => post (change result) rest) :
    (step.map change).Accepts post := by
  rcases accepts with strikes | ⟨result, rest, rfl, holds⟩
  · exact .inl (strikes.map change)
  · exact .done holds

theorem resumed {step strict : Step α} {post : α → TokenStream → Prop} (accepts : strict.Accepts post)
    (resumes : step.Resumes strict) : step.Accepts post := by
  rcases accepts with strikes | ⟨result, rest, rfl, holds⟩
  · exact .inl (resumes.strikes strikes)
  · rcases resumes with same | ⟨unfinished, _⟩
    · exact same ▸ .done holds
    · exact absurd rfl (unfinished result)

open Parse

theorem iterate {round : σ → Parse (Round σ α)} {post : α → TokenStream → Prop}
    (first : ((round state).run stream).Accepts fun decision rest => match decision with
      | .stop result => post result rest
      | .again next finish => rest.count < stream.count ∧
        ((iterate round next).run rest).Accepts fun result final => post (finish result) final) :
    ((iterate round state).run stream).Accepts post := by
  rw [run_iterate]
  apply first.andThen
  intro decision rest holds
  cases decision with
  | stop result => exact .done holds
  | again next finish =>
    simp only [holds.1, ↓reduceIte]
    exact .map holds.2

/-- A collection accepts what its first round does, if that is the last one or the collection goes on from
there. -/
theorem collect {round : Parse (Gain α)} {post : List α → TokenStream → Prop}
    (first : (round.run stream).Accepts fun gain rest => match gain with
      | .stop => post [] rest
      | .nothing => False
      | .item value => rest.count < stream.count ∧
        ((collect round).run rest).Accepts fun items final => post (value :: items) final) :
    ((collect round).run stream).Accepts post := by
  refine .iterate (first.andThen fun gain rest holds => ?_)
  cases gain with
  | stop => exact .done holds
  | nothing => exact holds.elim
  | item value => exact .done holds

/-- A loop whose rounds pass a token whenever they go on accepts until it has ended. -/
theorem iterate_while {round : σ → Parse (Round σ α)} (going ended : TokenStream → Prop) (passes : RoundsPass round)
    (each : ∀ state stream, going stream → ((round state).run stream).Accepts (Round.Leads going ended))
    (start : going stream) : ((Parse.iterate round state).run stream).Accepts fun _ rest => ended rest := by
  induction stream using TokenStream.induct generalizing state with
  | fewer stream ih =>
    refine .iterate (((each state stream start).ensured fun _ _ ran => ran).imp ?_)
    rintro (result | ⟨next, finish⟩) rest ⟨leads, ran⟩
    · exact leads
    · exact ⟨passes ran, ih rest (passes ran) leads⟩

/-- A collection whose rounds pass a token whenever they go on accepts until it has ended. -/
theorem collect_while {round : Parse (Gain α)} (going ended : TokenStream → Prop) (passes : GainsPass round)
    (each : ∀ stream, going stream → (round.run stream).Accepts (Gain.Leads going ended))
    (start : going stream) :
    ((Parse.collect round).run stream).Accepts fun _ rest => ended rest := by
  induction stream using TokenStream.induct with
  | fewer stream ih =>
    refine .collect (((each stream start).ensured fun _ _ ran => ran).imp ?_)
    rintro (_ | _ | value) rest ⟨leads, ran⟩
    · exact leads
    · exact leads
    · exact ⟨(passes ran).2, ih rest (passes ran).2 leads⟩

end Step.Accepts

end Mana
