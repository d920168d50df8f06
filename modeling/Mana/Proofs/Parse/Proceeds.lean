import Mana.Proofs.Parse.Ranges
import Mana.Proofs.Parse.Strikes

/-! Steps that proceed through a stream: what they find wrong is raised at tokens on their way, and their result is
told by the tokens that they read, in their order. -/
namespace Mana

namespace TokenStream

variable {stream rest last : TokenStream} {before middle after : Stage} {word more : List Token}

/-- The current token, if it is read. -/
def seen (stream : TokenStream) : Stage → List Token
  | .due => []
  | .read => [stream.current]

/-- From a stage of the stream to one of the rest, the tokens of the word are passed, and the last one that is read
there is the last one of the word. -/
structure Spans (stream : TokenStream) (before : Stage) (rest : TokenStream) (after : Stage) (word : List Token) :
    Prop where
  among : ∃ passed, (stream.onward before).ahead = passed ++ (rest.onward after).ahead ∧ word.Sublist passed
  last : rest.seen after <:+ stream.seen before ++ word

namespace Spans

theorem refl (stream : TokenStream) (stage : Stage) : stream.Spans stage stream stage [] :=
  ⟨⟨[], rfl, .refl _⟩, (List.append_nil _).symm ▸ List.suffix_refl _⟩

theorem trans (first : stream.Spans before rest middle word) (second : rest.Spans middle last after more) :
    stream.Spans before last after (word ++ more) := by
  obtain ⟨passed, split, sublist⟩ := first.among
  obtain ⟨passed', split', sublist'⟩ := second.among
  refine ⟨⟨passed ++ passed', by rw [split, split', List.append_assoc], sublist.append sublist'⟩, ?_⟩
  obtain ⟨front, ends⟩ := first.last
  refine second.last.trans ⟨front, ?_⟩
  rw [← List.append_assoc, ends, List.append_assoc]

theorem of_advanced (spans : stream.advanced.Spans .due rest after word) : stream.Spans .read rest after word :=
  ⟨spans.among, spans.last.trans (List.suffix_append _ _)⟩

theorem take (going : stream.current.kind ≠ .eof) (spans : stream.Spans .read rest after word) :
    stream.Spans .due rest after (stream.current :: word) := by
  obtain ⟨passed, split, sublist⟩ := spans.among
  refine ⟨⟨stream.current :: passed, ?_, sublist.cons_cons _⟩, spans.last⟩
  rw [onward_due, ahead_of_going going, List.cons_append]
  exact congrArg _ split

theorem given_up (within : rest.Within stream) : stream.Spans .due rest .due [] := by
  obtain ⟨passed, split⟩ := within.ahead
  exact ⟨⟨passed, split.symm, List.nil_sublist _⟩, List.nil_suffix⟩

theorem sublist (spans : stream.Spans before rest after word) : word.Sublist (stream.onward before).ahead := by
  obtain ⟨passed, split, sublist⟩ := spans.among
  exact split ▸ sublist.trans (List.sublist_append_left _ _)

theorem count_le (spans : stream.Spans before rest after word) :
    (rest.onward after).count ≤ (stream.onward before).count := by
  obtain ⟨passed, split, _⟩ := spans.among
  rw [TokenStream.count_eq, TokenStream.count_eq, split, List.length_append]
  exact Nat.le_add_left _ _

/-- To read a token is to leave fewer of them. -/
theorem shorter (spans : stream.Spans before rest before word) (some : word ≠ []) : rest.count < stream.count := by
  obtain ⟨passed, split, sublist⟩ := spans.among
  have fewer := congrArg List.length split
  have positive := Nat.lt_of_lt_of_le (List.length_pos_iff.mpr some) sublist.length_le
  rw [List.length_append, ← TokenStream.count_eq, ← TokenStream.count_eq] at fewer
  cases before with
  | due =>
    simp only [onward_due] at fewer
    omega
  | read =>
    change stream.count - 1 = passed.length + (rest.count - 1) at fewer
    omega

end Spans

end TokenStream

/-- A step proceeds from one stage of a stream to another: where it is struck, as many tokens have been passed as the
depth says, its diagnostics are a trail, none of them about nesting, and a failure has found one. Where it is done, its
result is told by a word that it read, which leaves nothing out unless something was found wrong. -/
structure Step.Proceeds (step : Step α) (depth : Nat) (stream : TokenStream) (before after : Stage)
    (told : α → List Token → Prop) : Prop where
  within : step.rest.Within stream
  struck : step.outcome = .struck → depth + step.rest.count ≤ (stream.onward before).count
  failed : step.outcome = .failed → step.found ≠ []
  trail : Trail (stream.onward before) step.found (step.unread fun _ => after)
  read : ∀ result, step.outcome = .done result → ∃ word, stream.Spans before step.rest after word ∧
    (step.found = [] → (stream.onward before).ahead = word ++ (step.rest.onward after).ahead) ∧ told result word

namespace Parse

/-- A round of a loop ends it with what is told from a state on, or tells what may come before that. -/
def Round.Tells (told : σ → α → List Token → Prop) (state : σ) : Round σ α → List Token → Prop
  | .stop result, word => told state result word
  | .again next finish, word => word ≠ [] ∧
    ∀ result later, told next result later → told state (finish result) (word ++ later)

/-- A round of a collection ends it, or tells what may come before the others. -/
def Gain.Tells (told : List α → List Token → Prop) : Gain α → List Token → Prop
  | .stop, word => told [] word
  | .nothing, word => word ≠ [] ∧ ∀ items later, told items later → told items (word ++ later)
  | .item value, word => word ≠ [] ∧ ∀ items later, told items later → told (value :: items) (word ++ later)

end Parse

namespace Step.Proceeds

variable {stream rest later : TokenStream} {before middle after : Stage} {found : List Diagnostic} {depth : Nat}
  {told : α → List Token → Prop} {word : List Token}

theorem done (tells : told result []) :
    (⟨.done result, stream, []⟩ : Step α).Proceeds depth stream before before told where
  within := .refl stream
  struck := nofun
  failed := nofun
  trail := .clear (.refl _)
  read := by
    rintro _ ⟨⟩
    exact ⟨[], .refl stream before, fun _ => rfl, tells⟩

theorem refused {token : Token} (raised : fault.RaisedAt token) (next : stream.next before = token) :
    (⟨.failed, stream, [⟨fault, token.location⟩]⟩ : Step α).Proceeds depth stream before after told where
  within := .refl stream
  struck := nofun
  failed _ := List.cons_ne_nil _ _
  trail := by
    rw [← stream.onward_current] at next
    exact next ▸ .raised (.refl _) (next ▸ raised) (.clear (stream.advanced_within_onward before))
  read := nofun

theorem strike : (⟨.struck, stream, []⟩ : Step α).Proceeds 0 stream .due after told where
  within := .refl stream
  struck _ := Nat.le_of_eq (Nat.zero_add _)
  failed := nofun
  trail := .clear (.advanced stream)
  read := nofun

theorem of_failed {told' : β → List Token → Prop}
    (proceeds : (⟨.failed, rest, found⟩ : Step α).Proceeds depth stream before middle told) :
    (⟨.failed, rest, found⟩ : Step β).Proceeds depth stream before after told' :=
  ⟨proceeds.within, nofun, fun _ => proceeds.failed rfl, proceeds.trail, nofun⟩

theorem of_struck {told' : β → List Token → Prop}
    (proceeds : (⟨.struck, rest, found⟩ : Step α).Proceeds depth stream before middle told) :
    (⟨.struck, rest, found⟩ : Step β).Proceeds depth stream before after told' :=
  ⟨proceeds.within, fun _ => proceeds.struck rfl, nofun, proceeds.trail, nofun⟩

theorem imp {step : Step α} {weaker : α → List Token → Prop} (proceeds : step.Proceeds depth stream before after told)
    (implies : ∀ result word, told result word → weaker result word) :
    step.Proceeds depth stream before after weaker where
  within := proceeds.within
  struck := proceeds.struck
  failed := proceeds.failed
  trail := proceeds.trail
  read result done := by
    obtain ⟨word, spans, whole, tells⟩ := proceeds.read result done
    exact ⟨word, spans, whole, implies result word tells⟩

/-- A step that is known stays within the stream. -/
theorem within_of {step : Step α} {outcome : Outcome α} (proceeds : step.Proceeds depth stream before after told)
    (ran : step = ⟨outcome, rest, found⟩) : rest.Within stream := by
  subst ran
  exact proceeds.within

theorem shallow {step : Step α} (proceeds : step.Proceeds depth stream before after told) :
    ∀ diagnostic ∈ step.found, diagnostic.fault ≠ .tooDeep := by
  intro diagnostic member deep
  obtain ⟨place, _, raised, _⟩ := proceeds.trail.raised_of_mem member
  rw [deep] at raised
  cases raised

/-- A limit that is larger than the number of tokens left is not struck. -/
theorem unstruck {step : Step α} (proceeds : step.Proceeds depth stream before after told)
    (deep : (stream.onward before).count < depth) : ¬ step.Strikes := by
  rintro (struck | ⟨diagnostic, member, tooDeep⟩)
  · have bound := proceeds.struck struck
    omega
  · exact proceeds.shallow diagnostic member tooDeep

theorem of_advanced {step : Step α} (proceeds : step.Proceeds depth stream.advanced .due after told) :
    step.Proceeds depth stream .read after told where
  within := proceeds.within.trans (.advanced stream)
  struck := proceeds.struck
  failed := proceeds.failed
  trail := proceeds.trail
  read result done := by
    obtain ⟨word, spans, whole, tells⟩ := proceeds.read result done
    exact ⟨word, spans.of_advanced, whole, tells⟩

theorem descend {step : Step α} (going : stream.current.kind ≠ .eof)
    (proceeds : step.Proceeds depth stream .read after fun result word => told result (stream.current :: word)) :
    step.Proceeds (depth + 1) stream .due after told where
  within := proceeds.within
  struck struck := by
    have bound : depth + step.rest.count ≤ stream.count - 1 := proceeds.struck struck
    have ahead := TokenStream.count_pos going
    change depth + 1 + step.rest.count ≤ stream.count
    omega
  failed := proceeds.failed
  trail := proceeds.trail.earlier (.advanced stream)
  read result done := by
    obtain ⟨word, spans, whole, tells⟩ := proceeds.read result done
    refine ⟨stream.current :: word, spans.take going, fun clear => ?_, tells⟩
    rw [TokenStream.onward_due, TokenStream.ahead_of_going going, List.cons_append]
    exact congrArg _ (whole clear)

theorem of_le {step : Step α} {less : Nat} (proceeds : step.Proceeds depth stream before after told)
    (fewer : less ≤ depth) : step.Proceeds less stream before after told :=
  ⟨proceeds.within, fun struck => Nat.le_trans (Nat.add_le_add_right fewer _) (proceeds.struck struck),
    proceeds.failed, proceeds.trail, proceeds.read⟩

theorem take {step : Step α} (going : stream.current.kind ≠ .eof)
    (proceeds : step.Proceeds depth stream .read after fun result word => told result (stream.current :: word)) :
    step.Proceeds depth stream .due after told := (descend going proceeds).of_le (Nat.le_succ depth)

theorem since {step : Step α}
    (proceeds : step.Proceeds depth rest middle after fun result more => told result (word ++ more))
    (within : rest.Within stream) (trail : Trail (stream.onward before) found (rest.onward middle))
    (spans : stream.Spans before rest middle word)
    (whole : found = [] → (stream.onward before).ahead = word ++ (rest.onward middle).ahead) :
    (step.since found).Proceeds depth stream before after told where
  within := proceeds.within.trans within
  struck struck := Nat.le_trans (proceeds.struck struck) spans.count_le
  failed failed clear := proceeds.failed failed (List.append_eq_nil_iff.mp clear).2
  trail := trail.append proceeds.trail
  read result done := by
    obtain ⟨more, later, rest, tells⟩ := proceeds.read result done
    refine ⟨word ++ more, spans.trans later, fun clear => ?_, tells⟩
    obtain ⟨first, second⟩ := List.append_eq_nil_iff.mp clear
    rw [whole first, rest second, List.append_assoc]
    rfl

theorem andThen {step : Step α} {tells : α → List Token → Prop} {told : β → List Token → Prop}
    {next : α → TokenStream → Step β} (first : step.Proceeds depth stream before middle tells)
    (second : ∀ result word rest, stream.Spans before rest middle word → tells result word →
      (next result rest).Proceeds depth rest middle after fun final more => told final (word ++ more)) :
    (step.andThen next).Proceeds depth stream before after told := by
  obtain ⟨outcome, rest, found⟩ := step
  cases outcome with
  | failed => exact first.of_failed
  | struck => exact first.of_struck
  | done result =>
    obtain ⟨word, spans, whole, tells⟩ := first.read result rfl
    exact (second result word rest spans tells).since first.within first.trail spans whole

theorem map {step : Step α} {told : β → List Token → Prop} {change : α → β}
    (proceeds : step.Proceeds depth stream before after fun result word => told (change result) word) :
    (step.map change).Proceeds depth stream before after told := by
  obtain ⟨outcome, rest, found⟩ := step
  cases outcome with
  | failed => exact proceeds.of_failed
  | struck => exact proceeds.of_struck
  | done result =>
    refine ⟨proceeds.within, nofun, nofun, proceeds.trail, ?_⟩
    rintro _ ⟨⟩
    exact proceeds.read result rfl

/-- Where a step fails, what it passed is given up, and another step goes on from there or later. -/
theorem after_failed {step : Step β} {told' : β → List Token → Prop}
    (failed : (⟨.failed, rest, found⟩ : Step α).Proceeds depth stream .due .read told) (given : later.Within rest)
    (proceeds : step.Proceeds depth later.advanced .due after told') :
    (step.since found).Proceeds depth stream .due after told' := by
  have left : later.advanced.Within stream := (TokenStream.Within.advanced later).trans (given.trans failed.within)
  have trail : Trail stream found later.advanced := failed.trail.later given.both_advanced
  have nothing : step.Proceeds depth later.advanced .due after fun result more => told' result ([] ++ more) := proceeds
  exact nothing.since left trail (.given_up left) fun clear => absurd clear (failed.failed rfl)

/-- What a failing step passed is given up but for one token, which is read after all that. -/
theorem last_after_failed {told' : β → List Token → Prop}
    (failed : (⟨.failed, rest, found⟩ : Step α).Proceeds depth stream .due .read told) (given : later.Within rest)
    (going : later.current.kind ≠ .eof) (tells : told' result [later.current]) :
    ((⟨.done result, later, []⟩ : Step β).since found).Proceeds depth stream .due .read told' := by
  have left := given.trans failed.within
  have spans : stream.Spans .due later .read [later.current] :=
    (TokenStream.Spans.given_up left).trans (.take going (.refl later .read))
  have last : (⟨.done result, later, []⟩ : Step β).Proceeds depth later .read .read fun result more =>
      told' result ([later.current] ++ more) := .done tells
  exact last.since left (failed.trail.later given.both_advanced) spans fun clear => absurd clear (failed.failed rfl)

open Parse

theorem iterate {round : σ → Parse (Round σ α)} (told : σ → α → List Token → Prop)
    (each : ∀ state stream, ((round state).run stream).Proceeds depth stream before before (Round.Tells told state))
    (state : σ) : ((iterate round state).run stream).Proceeds depth stream before before (told state) := by
  induction stream using TokenStream.induct generalizing state with
  | fewer stream ih =>
    rw [run_iterate]
    apply (each state stream).andThen
    intro decision word rest spans tells
    cases decision with
    | stop result => exact .done ((List.append_nil word).symm ▸ tells)
    | again next finish =>
      have shorter := spans.shorter tells.1
      simp only [shorter, ↓reduceIte]
      exact .map ((ih rest shorter next).imp tells.2)

theorem collect {round : Parse (Gain α)} (told : List α → List Token → Prop)
    (each : ∀ stream, (round.run stream).Proceeds depth stream before before (Gain.Tells told)) :
    ((collect round).run stream).Proceeds depth stream before before told := by
  refine .iterate (fun _ => told) (fun _ stream => ?_) ()
  apply (each stream).andThen
  intro gain word rest _ tells
  cases gain <;> exact .done ((List.append_nil word).symm ▸ tells)

end Step.Proceeds

namespace Parse

variable {stage : Stage}

theorem RoundsPass.of_proceeds {round : σ → Parse (Round σ α)} (told : σ → α → List Token → Prop)
    (each : ∀ state stream, ((round state).run stream).Proceeds depth stream stage stage (Round.Tells told state)) :
    RoundsPass round := by
  intro state stream next finish rest found ran
  have proceeds := each state stream
  rw [ran] at proceeds
  obtain ⟨word, spans, _, some, _⟩ := proceeds.read _ rfl
  exact spans.shorter some

theorem GainsPass.of_proceeds {round : Parse (Gain α)} (told : List α → List Token → Prop)
    (each : ∀ stream, (round.run stream).Proceeds depth stream stage stage (Gain.Tells told)) : GainsPass round := by
  intro stream gain rest found ran
  have proceeds := each stream
  rw [ran] at proceeds
  obtain ⟨word, spans, _, tells⟩ := proceeds.read gain rfl
  cases gain with
  | stop => trivial
  | nothing => exact spans.shorter tells.1
  | item value => exact ⟨trivial, spans.shorter tells.1⟩

end Parse

end Mana
