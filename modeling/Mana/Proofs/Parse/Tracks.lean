import Mana.Proofs.Parse.Reads
import Mana.Proofs.Token.Abreast

/-! Steps on streams side by side. The step on the longer stream tracks the one on the shorter stream, until
that comes to its end. -/
namespace Mana

/-- The fault is about the end of the tokens. -/
def Fault.MentionsEnd : Fault → Prop
  | .expected _ found | .noOpening found => found = .eof
  | .badInteger _ | .tooDeep | .remark _ => False

/-- A diagnostic of the step is about the end of the tokens. -/
def Step.MentionsEnd (step : Step α) : Prop := ∃ diagnostic ∈ step.found, diagnostic.fault.MentionsEnd

namespace Step.MentionsEnd

theorem since {step : Step α} (mentions : step.MentionsEnd) (found : List Diagnostic) :
    (step.since found).MentionsEnd := by
  obtain ⟨diagnostic, member, ends⟩ := mentions
  exact ⟨diagnostic, List.mem_append_right found member, ends⟩

/-- What was found before mentions the end still when another step goes on. -/
theorem of_since {found : List Diagnostic} (mentions : ∃ diagnostic ∈ found, diagnostic.fault.MentionsEnd)
    (step : Step α) : (step.since found).MentionsEnd := by
  obtain ⟨diagnostic, member, ends⟩ := mentions
  exact ⟨diagnostic, List.mem_append_left step.found member, ends⟩

theorem andThen {step : Step α} (mentions : step.MentionsEnd) (next : α → TokenStream → Step β) :
    (step.andThen next).MentionsEnd := by
  obtain ⟨diagnostic, member, ends⟩ := mentions
  obtain ⟨later, found⟩ := Parse.found_andThen step next
  exact ⟨diagnostic, found ▸ List.mem_append_left later member, ends⟩

theorem map {step : Step α} (mentions : step.MentionsEnd) (change : α → β) : (step.map change).MentionsEnd := by
  obtain ⟨outcome, rest, found⟩ := step
  cases outcome <;> exact mentions

end Step.MentionsEnd

/-- At the last token of the stream the step mentions the end, or is done there although what is beyond
would not have let it end. -/
inductive Step.Stranded (meets : TokenStream → Prop) (step : Step α) : Prop where
  | mentions (mentions : step.MentionsEnd)
  | arrives (result : α) (rest : TokenStream) (found : List Diagnostic)
    (ran : step = ⟨.done result, rest, found⟩) (last : rest.count = 1) (unmet : ¬ meets rest)

/-- The other step does on the longer stream what the step does on the shorter one, unless that mentions the
end or ends with its last token although what is beyond does not meet what the step needs there. -/
inductive Step.Tracks (pairing : Pairing) (same : α → α → Prop) (meets : TokenStream → Prop) :
    Step α → Step α → Prop where
  | stranded (apart : ¬ pairing.Closed) (stranded : step.Stranded meets) : Tracks pairing same meets step other
  | done {rest rest' : TokenStream} {found found' : List Diagnostic} (alike : same result result')
    (abreast : pairing.Abreast rest rest') (covers : pairing.Covers 0 rest)
    (reports : List.Forall₂ pairing.Reports found found') :
    Tracks pairing same meets ⟨.done result, rest, found⟩ ⟨.done result', rest', found'⟩
  | failed {rest rest' : TokenStream} {found found' : List Diagnostic}
    (abreast : pairing.Abreast rest rest') (covers : pairing.Covers 0 rest)
    (reports : List.Forall₂ pairing.Reports found found') :
    Tracks pairing same meets ⟨.failed, rest, found⟩ ⟨.failed, rest', found'⟩
  | struck {rest rest' : TokenStream} {found found' : List Diagnostic}
    (abreast : pairing.Abreast rest rest') (reports : List.Forall₂ pairing.Reports found found') :
    Tracks pairing same meets ⟨.struck, rest, found⟩ ⟨.struck, rest', found'⟩

namespace Step.Stranded

variable {meets : TokenStream → Prop}

theorem since {step : Step α} (stranded : step.Stranded meets) (found : List Diagnostic) :
    (step.since found).Stranded meets := by
  cases stranded with
  | mentions mentions => exact .mentions (mentions.since found)
  | arrives result rest own ran last unmet => exact .arrives result rest (found ++ own) (by rw [ran]; rfl) last unmet

theorem imp {step : Step α} {weaker : TokenStream → Prop} (stranded : step.Stranded meets)
    (implies : ∀ rest, weaker rest → meets rest) : step.Stranded weaker := by
  cases stranded with
  | mentions mentions => exact .mentions mentions
  | arrives result rest found ran last unmet =>
    exact .arrives result rest found ran last fun met => unmet (implies rest met)

theorem andThen {step : Step α} {meets' : TokenStream → Prop} {next : α → TokenStream → Step β}
    (stranded : step.Stranded meets)
    (second : ∀ result rest, rest.count = 1 → ¬ meets rest → (next result rest).Stranded meets') :
    (step.andThen next).Stranded meets' := by
  cases stranded with
  | mentions mentions => exact .mentions (mentions.andThen next)
  | arrives result rest found ran last unmet =>
    rw [ran, andThen_done]
    exact (second result rest last unmet).since found

theorem map {step : Step α} (stranded : step.Stranded meets) (change : α → β) : (step.map change).Stranded meets := by
  cases stranded with
  | mentions mentions => exact .mentions (mentions.map change)
  | arrives result rest found ran last unmet => exact .arrives (change result) rest found (by rw [ran]; rfl) last unmet

end Step.Stranded

namespace Step.Tracks

variable {pairing : Pairing} {same : α → α → Prop} {meets : TokenStream → Prop} {step other : Step α}
  {found found' : List Diagnostic}

theorem mentions (apart : ¬ pairing.Closed) (mentions : step.MentionsEnd) :
    step.Tracks pairing same meets other := .stranded apart (.mentions mentions)

theorem since (tracks : step.Tracks pairing same meets other)
    (reports : List.Forall₂ pairing.Reports found found') :
    (step.since found).Tracks pairing same meets (other.since found') := by
  cases tracks with
  | stranded apart stranded => exact .stranded apart (stranded.since found)
  | done alike abreast covers own => exact .done alike abreast covers (List.rel_append reports own)
  | failed abreast covers own => exact .failed abreast covers (List.rel_append reports own)
  | struck abreast own => exact .struck abreast (List.rel_append reports own)

theorem imp {weaker : TokenStream → Prop} (tracks : step.Tracks pairing same meets other)
    (implies : ∀ rest, weaker rest → meets rest) : step.Tracks pairing same weaker other := by
  cases tracks with
  | stranded apart stranded => exact .stranded apart (stranded.imp implies)
  | done alike abreast covers reports => exact .done alike abreast covers reports
  | failed abreast covers reports => exact .failed abreast covers reports
  | struck abreast reports => exact .struck abreast reports

theorem imp_same {weaker : α → α → Prop} (tracks : step.Tracks pairing same meets other)
    (implies : ∀ result result', same result result' → weaker result result') :
    step.Tracks pairing weaker meets other := by
  cases tracks with
  | stranded apart stranded => exact .stranded apart stranded
  | done alike abreast covers reports => exact .done (implies _ _ alike) abreast covers reports
  | failed abreast covers reports => exact .failed abreast covers reports
  | struck abreast reports => exact .struck abreast reports

/-- A step after another one tracks if it does so from wherever the first one tracks, and is stranded where the
first one is. -/
theorem andThen {step other : Step α} {middle : α → α → Prop} {between : TokenStream → Prop}
    {same : β → β → Prop} {next next' : α → TokenStream → Step β}
    (first : step.Tracks pairing middle between other)
    (second : ∀ result result' rest rest', middle result result' → pairing.Abreast rest rest' →
      pairing.Covers 0 rest → (next result rest).Tracks pairing same meets (next' result' rest'))
    (stranded : ∀ result rest, ¬ pairing.Closed → rest.count = 1 → ¬ between rest →
      (next result rest).Stranded meets) :
    (step.andThen next).Tracks pairing same meets (other.andThen next') := by
  cases first with
  | stranded apart early =>
    exact .stranded apart (early.andThen fun result rest => stranded result rest apart)
  | done alike abreast covers reports => exact (second _ _ _ _ alike abreast covers).since reports
  | failed abreast covers reports => exact .failed abreast covers reports
  | struck abreast reports => exact .struck abreast reports

theorem map {step other : Step α} {same : β → β → Prop} {change change' : α → β}
    (tracks : step.Tracks pairing (fun result result' => same (change result) (change' result')) meets other) :
    (step.map change).Tracks pairing same meets (other.map change') := by
  cases tracks with
  | stranded apart stranded => exact .stranded apart (stranded.map change)
  | done alike abreast covers reports => exact .done alike abreast covers reports
  | failed abreast covers reports => exact .failed abreast covers reports
  | struck abreast reports => exact .struck abreast reports

end Step.Tracks

namespace Parse

/-- Two rounds of a loop decide alike. -/
inductive Round.Alike (alike : σ → σ → Prop) (same : α → α → Prop) : Round σ α → Round σ α → Prop where
  | stop (results : same result result') : Alike alike same (.stop result) (.stop result')
  | again (next : alike state state') (finish : ∀ result result', same result result' →
      same (change result) (change' result')) : Alike alike same (.again state change) (.again state' change')

/-- Two rounds of a collection find alike items. -/
inductive Gain.Alike (same : α → α → Prop) : Gain α → Gain α → Prop where
  | stop : Alike same .stop .stop
  | nothing : Alike same .nothing .nothing
  | item (alike : same value value') : Alike same (.item value) (.item value')

end Parse

namespace Step.Stranded

open Parse

theorem iterate {round : σ → Parse (Round σ α)} {meets : TokenStream → Prop} (passes : RoundsPass round)
    (stops : ∀ state stream, stream.count = 1 → ∃ result, (round state).run stream = ⟨.done (.stop result), stream, []⟩)
    (stranded : ((round state).run stream).Stranded meets) : ((iterate round state).run stream).Stranded meets := by
  rw [run_iterate]
  cases stranded with
  | mentions mentions => exact .mentions (mentions.andThen _)
  | arrives decision rest found ran last unmet =>
    rw [ran]
    refine since ?_ found
    cases decision with
    | stop result => exact .arrives result rest [] rfl last unmet
    | again next finish =>
      simp only [passes ran, ↓reduceIte]
      obtain ⟨result, stopped⟩ := stops next rest last
      rw [run_iterate, stopped]
      exact .arrives (finish result) rest [] rfl last unmet

end Step.Stranded

namespace Step.Tracks

open Parse

variable {pairing : Pairing} {meets : TokenStream → Prop}

theorem iterate {round : σ → Parse (Round σ α)} (alike : σ → σ → Prop) (same : α → α → Prop)
    (passes : RoundsPass round)
    (each : ∀ state state' stream other, alike state state' → pairing.Abreast stream other →
      pairing.Covers 0 stream →
        Step.Tracks pairing (Round.Alike alike same) meets ((round state).run stream) ((round state').run other))
    (stops : ∀ state stream, ¬ pairing.Closed → stream.count = 1 →
      ∃ result, (round state).run stream = ⟨.done (.stop result), stream, []⟩)
    {state state' : σ} (start : alike state state')
    (abreast : pairing.Abreast stream other) (covers : pairing.Covers 0 stream) :
    Step.Tracks pairing same meets ((iterate round state).run stream) ((iterate round state').run other) := by
  induction stream using TokenStream.induct generalizing state state' other with
  | fewer stream ih =>
    have tracks := each state state' stream other start abreast covers
    rw [run_iterate, run_iterate]
    rcases observed : (round state).run stream with ⟨outcome, rest, found⟩
    rcases observed' : (round state').run other with ⟨outcome', rest', found'⟩
    rw [observed] at tracks
    rw [observed'] at tracks
    cases tracks with
    | failed abreast covers reports => exact .failed abreast covers reports
    | struck abreast reports => exact .struck abreast reports
    | done decided later covers reports =>
      simp only [andThen_done]
      refine since ?_ reports
      cases decided with
      | stop alike => exact .done alike later covers .nil
      | again following finish =>
        have shorter := passes observed
        have shorter' : rest'.count < other.count := (abreast.count_lt_iff later).mpr shorter
        simp only [shorter, shorter', ↓reduceIte]
        exact .map ((ih rest shorter following later covers).imp_same finish)
    | stranded apart stranded =>
      refine .stranded apart ?_
      rw [← observed, ← run_iterate]
      exact .iterate passes (fun state stream => stops state stream apart) (observed ▸ stranded)

theorem collect {round : Parse (Gain α)} (same : α → α → Prop) (passes : GainsPass round)
    (each : ∀ stream other, pairing.Abreast stream other → pairing.Covers 0 stream →
      Step.Tracks pairing (Gain.Alike same) meets (round.run stream) (round.run other))
    (stops : ∀ stream, ¬ pairing.Closed → stream.count = 1 → round.run stream = ⟨.done .stop, stream, []⟩)
    (abreast : pairing.Abreast stream other) (covers : pairing.Covers 0 stream) :
    Step.Tracks pairing (List.Forall₂ same) meets ((collect round).run stream) ((collect round).run other) := by
  refine iterate (fun _ _ => True) (List.Forall₂ same) passes.rounds (fun _ _ stream other _ abreast covers => ?_)
    (fun _ stream apart last => ?_) trivial abreast covers
  · apply (each stream other abreast covers).andThen
    · intro gain gain' rest rest' alike abreast covers
      cases alike with
      | stop => exact .done (.stop .nil) abreast covers .nil
      | nothing => exact .done (.again trivial fun _ _ all => all) abreast covers .nil
      | item alike => exact .done (.again trivial fun _ _ all => .cons alike all) abreast covers .nil
    · intro gain rest _ last unmet
      cases gain <;> exact .arrives _ rest [] rfl last unmet
  · exact ⟨[], by rw [run_bind, stops stream apart last]; rfl⟩

end Step.Tracks

end Mana
