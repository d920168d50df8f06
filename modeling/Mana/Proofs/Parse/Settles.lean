import Mana.Proofs.Parse.Ranges
import Mana.Proofs.Parse.Strikes
import Mana.Proofs.Token.Fork

/-! Steps on streams that fork. As long as the tokens due are shared, the steps do the same; once they are not, all
that is still found is found beyond the shared tokens. -/
namespace Mana

/-- A step has come to the end of the stream: it leaves only tokens of that unread, and all that it found after what
is common is located there. -/
structure Step.Beyond (step : Step α) (ending : TokenStream) (after : α → Stage) (common : List Diagnostic) :
    Prop where
  unread : (step.unread after).Within ending
  found : ∃ later, step.found = common ++ later ∧
    ∀ diagnostic ∈ later, ∃ token ∈ ending.tokens, diagnostic.location = token.location

/-- Steps on streams that share tokens do the same in front of what is still shared, unless both have come beyond
that, or the limit on nesting is struck. -/
inductive Step.Settles (fork : Fork) (after : α → Stage) : Step α → Step α → Prop where
  | strikes (strikes : step.Strikes ∨ other.Strikes) : Settles fork after step other
  | done {rest rest' : TokenStream} {found : List Diagnostic} (shares : fork.Shares (after result) word rest rest') :
      Settles fork after ⟨.done result, rest, found⟩ ⟨.done result, rest', found⟩
  | failed {rest rest' : TokenStream} {found : List Diagnostic} (shares : fork.Shares .read word rest rest') :
      Settles fork after ⟨.failed, rest, found⟩ ⟨.failed, rest', found⟩
  | apart (first : step.Beyond fork.one after common) (second : other.Beyond fork.other after common) :
      Settles fork after step other

namespace Step.Beyond

variable {ending stream : TokenStream} {common : List Diagnostic} {after : α → Stage}

theorem of_ranges {step : Step α} (ranges : step.Ranges stream before after)
    (onward : (stream.onward before).Within ending) : step.Beyond ending after [] where
  unread := ranges.unread.trans onward
  found := by
    refine ⟨step.found, rfl, fun diagnostic member => ?_⟩
    obtain ⟨place, later, _, located⟩ := ranges.located diagnostic member
    exact ⟨place.current, (later.trans onward).current_mem, located⟩

theorem since {step : Step α} (beyond : step.Beyond ending after common) (found : List Diagnostic) :
    (step.since found).Beyond ending after (found ++ common) where
  unread := beyond.unread
  found := by
    obtain ⟨later, split, located⟩ := beyond.found
    exact ⟨later, by rw [found_since, split, List.append_assoc], located⟩

theorem andThen {step : Step α} {after : β → Stage} {middle : α → Stage} {next : α → TokenStream → Step β}
    (first : step.Beyond ending middle common)
    (second : ∀ result rest, (next result rest).Ranges rest (middle result) after) :
    (step.andThen next).Beyond ending after common := by
  obtain ⟨outcome, rest, found⟩ := step
  cases outcome with
  | failed => exact ⟨first.unread, first.found⟩
  | struck => exact ⟨first.unread, first.found⟩
  | done result =>
    obtain ⟨own, split, located⟩ := first.found
    have onward : (rest.onward (middle result)).Within ending := first.unread
    have later := of_ranges (second result rest) onward
    obtain ⟨more, same, located'⟩ := later.found
    refine ⟨later.unread, own ++ more, ?_, fun diagnostic member => ?_⟩
    · rw [andThen_done, found_since, ← List.append_assoc]
      exact congrArg₂ _ split same
    · exact (List.mem_append.mp member).elim (located diagnostic) (located' diagnostic)

theorem map {step : Step α} {after : β → Stage} {change : α → β}
    (beyond : step.Beyond ending (after ∘ change) common) : (step.map change).Beyond ending after common := by
  obtain ⟨outcome, rest, found⟩ := step
  cases outcome <;> exact ⟨beyond.unread, beyond.found⟩

theorem attempt {parse : Parse α} (beyond : (parse.run stream).Beyond ending (fun _ => .read) common) :
    ((Parse.attempt parse).run stream).Beyond ending (fun _ => .read) common := by
  rcases observed : parse.run stream with ⟨outcome, rest, found⟩
  rw [observed] at beyond
  simp only [Parse.attempt, observed]
  cases outcome <;> exact ⟨beyond.unread, beyond.found⟩

end Step.Beyond

theorem Parse.run_orWhenStruck {parse : Parse α} {stream : TokenStream} (unstruck : ¬ (parse.run stream).Strikes)
    (remedy : Parse α) : (orWhenStruck parse remedy).run stream = parse.run stream := by
  rcases observed : parse.run stream with ⟨outcome, rest, found⟩
  rw [observed] at unstruck
  cases outcome with
  | struck => exact absurd Step.strikes_struck unstruck
  | done result => exact run_orWhenStruck_done observed remedy
  | failed => simp only [orWhenStruck, observed]

namespace Step.Settles

variable {fork : Fork} {word : List Token} {stream other : TokenStream} {before : Stage} {after : α → Stage}

theorem of_ranges {step step' : Step α} (shares : fork.Shares before [] stream other)
    (ranges : step.Ranges stream before after) (ranges' : step'.Ranges other before after) :
    step.Settles fork after step' := by
  obtain ⟨one, two⟩ := shares.onward
  exact .apart (.of_ranges ranges (one ▸ .refl _)) (.of_ranges ranges' (two ▸ .refl _))

theorem since {step step' : Step α} (settles : step.Settles fork after step') (found : List Diagnostic) :
    (step.since found).Settles fork after (step'.since found) := by
  cases settles with
  | strikes strikes => exact .strikes (strikes.imp (·.since found) (·.since found))
  | done shares => exact .done shares
  | failed shares => exact .failed shares
  | apart first second => exact .apart (first.since found) (second.since found)

theorem andThen {step step' : Step α} {middle : α → Stage} {after : β → Stage} {next next' : α → TokenStream → Step β}
    (first : step.Settles fork middle step')
    (second : ∀ result rest rest' word, fork.Shares (middle result) word rest rest' →
      (next result rest).Settles fork after (next' result rest'))
    (ranges : ∀ result rest, (next result rest).Ranges rest (middle result) after)
    (ranges' : ∀ result rest, (next' result rest).Ranges rest (middle result) after) :
    (step.andThen next).Settles fork after (step'.andThen next') := by
  cases first with
  | strikes strikes => exact .strikes (strikes.imp (·.andThen next) (·.andThen next'))
  | done shares => exact (second _ _ _ _ shares).since _
  | failed shares => exact .failed shares
  | apart one two => exact .apart (one.andThen ranges) (two.andThen ranges')

theorem map {step step' : Step α} {after : β → Stage} {change : α → β}
    (settles : step.Settles fork (after ∘ change) step') :
    (step.map change).Settles fork after (step'.map change) := by
  cases settles with
  | strikes strikes => exact .strikes (strikes.imp (·.map change) (·.map change))
  | done shares => exact .done shares
  | failed shares => exact .failed shares
  | apart first second => exact .apart first.map second.map

open Parse

theorem attempt {parse : Parse α} (settles : (parse.run stream).Settles fork (fun _ => .read) (parse.run other)) :
    ((Parse.attempt parse).run stream).Settles fork (fun _ => .read) ((Parse.attempt parse).run other) := by
  have settled := settles
  rcases observed : parse.run stream with ⟨outcome, rest, found⟩
  rcases observed' : parse.run other with ⟨outcome', rest', found'⟩
  rw [observed, observed'] at settled
  cases settled with
  | strikes strikes =>
    rw [← observed, ← observed'] at strikes
    exact .strikes (strikes.imp .attempt .attempt)
  | done shares =>
    simp only [Parse.attempt, observed, observed']
    exact .done shares
  | failed shares =>
    simp only [Parse.attempt, observed, observed']
    exact .done shares
  | apart first second =>
    rw [← observed] at first
    rw [← observed'] at second
    exact .apart first.attempt second.attempt

theorem orWhenStruck {parse : Parse α} (settles : (parse.run stream).Settles fork (fun _ => .read) (parse.run other))
    (token : Token) (result : α) :
    ((Parse.orWhenStruck parse (complain .tooDeep token >>= fun _ => pure result)).run stream).Settles fork
      (fun _ => .read)
      ((Parse.orWhenStruck parse (complain .tooDeep token >>= fun _ => pure result)).run other) := by
  by_cases strikes : (parse.run stream).Strikes ∨ (parse.run other).Strikes
  · exact .strikes (strikes.imp (·.orWhenStruck token result) (·.orWhenStruck token result))
  · obtain ⟨unstruck, unstruck'⟩ := not_or.mp strikes
    rw [run_orWhenStruck unstruck, run_orWhenStruck unstruck']
    exact settles

theorem iterate {round : σ → Parse (Round σ α)}
    (each : ∀ state word stream other, fork.Shares before word stream other →
      ((round state).run stream).Settles fork (Round.after before) ((round state).run other))
    (ranges : ∀ state stream, ((round state).run stream).Ranges stream before (Round.after before))
    (state : σ) (shares : fork.Shares before word stream other) :
    ((iterate round state).run stream).Settles fork (fun _ => .read) ((iterate round state).run other) := by
  induction stream using TokenStream.induct generalizing state word other with
  | fewer stream ih =>
    rw [run_iterate, run_iterate]
    apply (each state word stream other shares).andThen
    · intro decision rest rest' word' later
      cases decision with
      | stop result => exact .done later
      | again next finish =>
        simp only [shares.count_lt_iff later]
        split
        · rename_i shorter
          exact .map (ih rest shorter next later)
        · exact .strikes (.inl strikes_struck)
    all_goals
      intro decision rest
      cases decision with
      | stop result => exact .done rfl
      | again next finish => exact .again fun _ => .iterate ranges next

end Step.Settles

end Mana
