import Mana.Proofs.Parse.Run
import Mana.Proofs.Parse.Strikes
import Mana.Proofs.Token.Window

/-! Steps that concur: two parsers do the same, stay within the tokens ahead, and are not struck. Where the first one
works within a limit, it may strike that instead. -/
namespace Mana

/-- Two steps from a stream are the same. They stay within the stream, are not struck, and come to a result as
described, if any. -/
structure Step.Concurs (step other : Step α) (stream : TokenStream) (post : α → TokenStream → Prop) : Prop where
  same : step = other
  within : step.rest.Within stream
  unstruck : step.outcome ≠ .struck
  result : ∀ result, step.outcome = .done result → post result step.rest

/-- Two steps concur, or the first one strikes the limit where it works within one. -/
def Step.Accords (limited : Prop) (step other : Step α) (stream : TokenStream) (post : α → TokenStream → Prop) : Prop :=
  limited ∧ step.Strikes ∨ step.Concurs other stream post

/-- Two steps accord, whatever they come to. -/
abbrev Step.Coincides (limited : Prop) (step other : Step α) (stream : TokenStream) : Prop :=
  step.Accords limited other stream fun _ _ => True

/-- Two parsers accord wherever they begin within a stream. -/
def Parse.Accord (limited : Prop) (parse other : Parse α) (bound : TokenStream) : Prop :=
  ∀ stream : TokenStream, stream.Within bound → (parse.run stream).Coincides limited (other.run stream) stream

namespace Step.Accords

variable {limited : Prop} {stream rest : TokenStream} {post : α → TokenStream → Prop} {found : List Diagnostic}

theorem done {result : α} (within : rest.Within stream) (holds : post result rest) :
    (⟨.done result, rest, found⟩ : Step α).Accords limited ⟨.done result, rest, found⟩ stream post := by
  refine .inr ⟨rfl, within, nofun, ?_⟩
  rintro _ ⟨⟩
  exact holds

theorem failed (within : rest.Within stream) :
    (⟨.failed, rest, found⟩ : Step α).Accords limited ⟨.failed, rest, found⟩ stream post :=
  .inr ⟨rfl, within, nofun, nofun⟩

/-- Without a limit the steps concur. -/
theorem concurs {step other : Step α} (accords : step.Accords False other stream post) :
    step.Concurs other stream post := accords.resolve_left fun ⟨unlimited, _⟩ => unlimited

/-- A limit that is not struck makes no difference. -/
theorem eq_of_unstruck {step other : Step α} (accords : step.Accords limited other stream post)
    (unstruck : ¬ step.Strikes) : step = other := (accords.resolve_left fun ⟨_, strikes⟩ => unstruck strikes).same

theorem since {step other : Step α} (accords : step.Accords limited other stream post) :
    (step.since found).Accords limited (other.since found) stream post := by
  rcases accords with ⟨limit, strikes⟩ | ⟨rfl, within, unstruck, holds⟩
  · exact .inl ⟨limit, strikes.since found⟩
  · exact .inr ⟨rfl, within, unstruck, holds⟩

theorem earlier {step other : Step α} (accords : step.Accords limited other rest post) (within : rest.Within stream) :
    step.Accords limited other stream post :=
  accords.imp_right fun concurs => ⟨concurs.same, concurs.within.trans within, concurs.unstruck, concurs.result⟩

theorem andThen {step other : Step α} {middle : α → TokenStream → Prop} {post : β → TokenStream → Prop}
    {next following : α → TokenStream → Step β} (first : step.Accords limited other stream middle)
    (second : ∀ result rest, rest.Within stream → middle result rest →
      (next result rest).Accords limited (following result rest) rest post) :
    (step.andThen next).Accords limited (other.andThen following) stream post := by
  rcases first with ⟨limit, strikes⟩ | ⟨rfl, within, unstruck, holds⟩
  · exact .inl ⟨limit, strikes.andThen next⟩
  · obtain ⟨outcome, rest, found⟩ := step
    cases outcome with
    | done result => exact ((second result rest within (holds result rfl)).earlier within).since
    | failed => exact failed within
    | struck => exact absurd rfl unstruck

theorem map {step other : Step α} {change : α → α} (accords : step.Coincides limited other stream) :
    (step.map change).Coincides limited (other.map change) stream := by
  rcases accords with ⟨limit, strikes⟩ | ⟨rfl, within, unstruck, _⟩
  · exact .inl ⟨limit, strikes.map change⟩
  · obtain ⟨outcome, rest, found⟩ := step
    cases outcome with
    | done result => exact done within trivial
    | failed => exact failed within
    | struck => exact absurd rfl unstruck

open Parse

theorem attempt {parse other : Parse α} (accords : (parse.run stream).Coincides limited (other.run stream) stream) :
    ((Parse.attempt parse).run stream).Coincides limited ((Parse.attempt other).run stream) stream := by
  rcases accords with ⟨limit, strikes⟩ | ⟨same, within, unstruck, _⟩
  · exact .inl ⟨limit, strikes.attempt⟩
  · simp only [Parse.attempt, ← same]
    rcases observed : parse.run stream with ⟨outcome, rest, found⟩
    rw [observed] at within unstruck
    cases outcome with
    | done result => exact done within trivial
    | failed => exact done within trivial
    | struck => exact absurd rfl unstruck

theorem orWhenStruck {parse other : Parse α}
    (accords : (parse.run stream).Accords limited (other.run stream) stream post) (token : Token) (result : α) :
    ((Parse.orWhenStruck parse (complain .tooDeep token >>= fun _ => pure result)).run stream).Accords limited
      ((Parse.orWhenStruck other (complain .tooDeep token >>= fun _ => pure result)).run stream) stream post := by
  rcases accords with ⟨limit, strikes⟩ | ⟨same, within, unstruck, holds⟩
  · exact .inl ⟨limit, strikes.orWhenStruck token result⟩
  · simp only [Parse.orWhenStruck, ← same]
    rcases observed : parse.run stream with ⟨outcome, rest, found⟩
    rw [observed] at within unstruck holds
    cases outcome with
    | done result => exact done within (holds result rfl)
    | failed => exact failed within
    | struck => exact absurd rfl unstruck

theorem iterate {round other : σ → Parse (Round σ α)} {bound : TokenStream}
    (each : ∀ state (stream : TokenStream), stream.Within bound →
      ((round state).run stream).Accords limited ((other state).run stream) stream
        (Round.Passes (fun _ => True) (fun _ => True) stream))
    (state : σ) : (iterate round state).Accord limited (iterate other state) bound := by
  intro stream inside
  induction stream using TokenStream.induct generalizing state with
  | fewer stream ih =>
    rw [run_iterate, run_iterate]
    apply (each state stream inside).andThen
    intro decision rest within passed
    cases decision with
    | stop result => exact done (.refl rest) trivial
    | again next finish =>
      have shorter : rest.count < stream.count := passed.2.1
      simp only [shorter, ↓reduceIte]
      exact (ih rest shorter next (within.trans inside)).map

theorem collect {round other : Parse (Gain α)} {bound : TokenStream}
    (each : ∀ stream : TokenStream, stream.Within bound →
      (round.run stream).Accords limited (other.run stream) stream (Gain.Passes (fun _ => True) stream)) :
    (collect round).Accord limited (collect other) bound := by
  refine .iterate (fun _ stream inside => (each stream inside).andThen fun gain rest within passed => ?_) ()
  cases gain with
  | stop => exact done (.refl rest) trivial
  | nothing => exact done (.refl rest) ⟨trivial, passed, fun _ _ => trivial⟩
  | item value => exact done (.refl rest) ⟨trivial, passed.2, fun _ _ => trivial⟩

end Step.Accords

namespace Step.Concurs

variable {stream rest : TokenStream} {post : α → TokenStream → Prop} {found : List Diagnostic}

theorem trans {step other third : Step α} (first : step.Concurs other stream post) (second : other = third) :
    step.Concurs third stream post :=
  ⟨first.same.trans second, first.within, first.unstruck, first.result⟩

/-- A step that is known comes to a result as described. -/
theorem result_of {step other : Step α} {value : α} (concurs : step.Concurs other stream post)
    (ran : step = ⟨.done value, rest, found⟩) : post value rest := by
  subst ran
  exact concurs.result value rfl

end Step.Concurs

namespace Parse.Accord

variable {limited : Prop} {bound : TokenStream}

theorem pure (result : α) : (pure result : Parse α).Accord limited (pure result) bound :=
  fun stream _ => .done (.refl stream) trivial

theorem current : current.Accord limited current bound := fun stream _ => .done (.refl stream) trivial

theorem upcoming : upcoming.Accord limited upcoming bound := fun stream _ => .done (.refl stream) trivial

theorem advance : advance.Accord limited advance bound := fun stream _ => .done (.advanced stream) trivial

theorem bind {first other : Parse α} {second following : α → Parse β} (former : first.Accord limited other bound)
    (latter : ∀ result, (second result).Accord limited (following result) bound) :
    (first >>= second).Accord limited (other >>= following) bound :=
  fun stream inside => (former stream inside).andThen fun result rest within _ =>
    latter result rest (within.trans inside)

end Parse.Accord

end Mana
