import DaemonKeeper.Proofs.Mentions
set_option autoImplicit false

/-!
# Arguments that render options (SPEC §4.4)

Options are rendered by mentions of what differs from the options that are taken anyway, and perhaps
of more, in any order and any spelling of the values.  Such arguments are read as the options they
render, and a second mention of any of them is refused.
-/

namespace DaemonKeeper.CommandLine

/-! ## Renderings -/

/-- A number after any number of zeros, and perhaps a plus sign. -/
def WritesNumber (n : Nat) (text : String) : Prop :=
  ∃ width, text = Text.padZeros width (toString n) ∨ text = "+" ++ Text.padZeros width (toString n)

/-- The text is the value of the option, or one spelling of it. -/
def Options.HasValue (options : Options) : Known → String → Prop
  | .valued .config, value => options.config = ⟨value⟩
  | .valued .logLevel, value => ∃ level, options.logLevel = some level ∧ value = level.name
  | .valued .maxIterations, value => ∃ n, options.maxCycles = some n ∧ WritesNumber n value
  | .flag _, _ => False

/-- What is mentioned is so. -/
def Mention.Holds (options : Options) : Mention → Prop
  | attached k value => options.HasValue k value
  | apart o value => options.HasValue (.valued o) value ∧ StandsApart value
  | dryRun => options.dryRun = true

/-- The option is as it is taken to be if it is not mentioned. -/
def Options.AtRest (options : Options) : Known → Prop
  | .valued .config => options.config = Config.defaultPath
  | .valued .logLevel => options.logLevel = none
  | .valued .maxIterations => options.maxCycles = none
  | .flag .dryRun => options.dryRun = false
  | .flag _ => True

/-- Options that a run can be asked for: the path is not empty, and the number has 64 bits. -/
structure Options.Proper (options : Options) : Prop where
  path : options.config.text ≠ ""
  number : ∀ n ∈ options.maxCycles, n < Word.bound64

/-- The mentions tell the options: each of them is so, none is repeated, and nothing is missing. -/
structure Renders (mentions : List Mention) (options : Options) : Prop where
  once : (mentions.map Mention.option).Nodup
  holds : ∀ m ∈ mentions, m.Holds options
  complete : ∀ k, k ∉ mentions.map Mention.option → options.AtRest k

/-! ## What is entered -/

/-- The options if only these were mentioned. -/
def Options.within (options : Options) (seen : List Known) : Options where
  config := if .valued .config ∈ seen then options.config else Config.defaultPath
  logLevel := if .valued .logLevel ∈ seen then options.logLevel else none
  dryRun := if .flag .dryRun ∈ seen then options.dryRun else false
  maxCycles := if .valued .maxIterations ∈ seen then options.maxCycles else none

variable {options : Options} {seen : List Known} {m : Mention} {ms : List Mention}

theorem WritesNumber.readBelow? {n bound : Nat} {text : String} (h : WritesNumber n text)
    (hn : n < bound) : Text.readBelow? bound text.toList = some n := by
  obtain ⟨width, h⟩ := h
  have hvalue : Nat.ofDigitChars 10 (Text.padZeros width (toString n)).toList 0 = n :=
    Text.ofDigitChars_padZeros width n
  have htext : text.toList = (Text.padZeros width (toString n)).toList ∨
      text.toList = '+' :: (Text.padZeros width (toString n)).toList := by
    rcases h with rfl | rfl
    · exact .inl rfl
    · exact .inr (by simp)
  rw [Text.readBelow?_eq_some htext (Text.padZeros_ne_nil width n)
    (fun _ => Text.isDigit_of_mem_padZeros) (hvalue.symm ▸ hn), hvalue]

/-- Setting an option to its value makes it one more that was mentioned. -/
theorem Options.set_within (hproper : options.Proper) {o : Valued} {value : String}
    (h : options.HasValue (.valued o) value) :
    (options.within seen).set o value = .ok (options.within (.valued o :: seen)) := by
  cases o with
  | config =>
    have hconfig : options.config = ⟨value⟩ := h
    have hne : value ≠ "" := by simpa [hconfig] using hproper.path
    simp [set, within, hconfig, hne]
  | logLevel =>
    obtain ⟨level, hlevel, rfl⟩ := h
    simp [set, within, hlevel]
  | maxIterations =>
    obtain ⟨n, hn, hvalue⟩ := h
    simp [set, within, hvalue.readBelow? (hproper.number n hn), hn]

theorem Reading.take_within (hproper : options.Proper) {o : Valued} {value : String}
    (hnew : .valued o ∉ seen) (h : options.HasValue (.valued o) value) :
    take ⟨options.within seen, seen, none⟩ o value =
      .ok ⟨options.within (.valued o :: seen), .valued o :: seen, none⟩ := by
  unfold take note
  rw [if_neg hnew]
  show (options.within seen).set o value >>= _ = _
  rw [Options.set_within hproper h]
  rfl

theorem Reading.raise_within (hnew : .flag .dryRun ∉ seen) (h : options.dryRun = true) :
    raise ⟨options.within seen, seen, none⟩ .dryRun =
      .ok ⟨options.within (.flag .dryRun :: seen), .flag .dryRun :: seen, none⟩ := by
  simp [raise, note, hnew, Options.within, h]

/-- Entering what is so and was not mentioned makes it one more that was. -/
theorem Reading.enter_within (hproper : options.Proper) (hm : m.Holds options)
    (hnew : m.option ∉ seen) :
    enter ⟨options.within seen, seen, none⟩ m =
      .ok ⟨options.within (m.option :: seen), m.option :: seen, none⟩ := by
  match m, hm with
  | .attached (.valued o) value, hm => exact take_within hproper hnew hm
  | .apart o value, hm => exact take_within hproper hnew hm.1
  | .dryRun, hm => exact raise_within hnew hm

/-- Entering everything that is so leaves just that mentioned. -/
theorem Reading.foldlM_enter_within (hproper : options.Proper) (hms : ∀ m ∈ ms, m.Holds options)
    (hnodup : ((ms.map Mention.option).reverse ++ seen).Nodup) :
    ms.foldlM enter ⟨options.within seen, seen, none⟩ =
      .ok ⟨options.within ((ms.map Mention.option).reverse ++ seen),
        (ms.map Mention.option).reverse ++ seen, none⟩ := by
  -- What was mentioned grows with every step, so the induction is over any start.
  induction ms generalizing seen with
  | nil => rfl
  | cons m rest ih =>
    obtain ⟨hm, hrest⟩ := List.forall_mem_cons.mp hms
    rw [List.map_cons, List.reverse_cons, List.append_assoc, List.singleton_append] at hnodup ⊢
    have hnew : m.option ∉ seen := (List.nodup_cons.mp (List.nodup_append.mp hnodup).2.1).1
    rw [List.foldlM_cons, enter_within hproper hm hnew]
    exact ih hrest hnodup

/-- If nothing is missing, what was mentioned is all that there is. -/
theorem Options.within_eq (h : ∀ k, k ∉ seen → options.AtRest k) : options.within seen = options := by
  obtain ⟨config, logLevel, dryRun, maxCycles⟩ := options
  simp only [within, mk.injEq, ite_eq_left_iff]
  exact ⟨fun hk => (h _ hk).symm, fun hk => (h _ hk).symm, fun hk => (h _ hk).symm,
    fun hk => (h _ hk).symm⟩

theorem Mention.Holds.readable (h : m.Holds options) : m.Readable := by
  match m, h with
  | .attached (.valued _) _, _ => trivial
  | .apart _ _, h => exact h.2
  | .dryRun, _ => trivial

/-- Arguments that render options are read as these.  With one mention more of an option among them,
whatever it is mentioned with, they are rejected. -/
theorem parse_undoes_rendering (hproper : options.Proper) (h : Renders ms options) :
    parse (ms.flatMap Mention.words) = .ok options ∧
      ∀ before after again, ms = before ++ after → again.option ∈ ms.map Mention.option →
        Rejected (parse ((before ++ again :: after).flatMap Mention.words)) := by
  have hreadable : ∀ m ∈ ms, m.Readable := fun m hm => (h.holds m hm).readable
  constructor
  · have hnone : ({} : Reading) = ⟨options.within [], [], none⟩ := by simp [Options.within]
    have hnodup : ((ms.map Mention.option).reverse ++ []).Nodup := by simpa using h.once
    have hall : options.within ((ms.map Mention.option).reverse ++ []) = options :=
      Options.within_eq fun k hk => h.complete k (by simpa using hk)
    rw [parse, Reading.finish_words hreadable, hnone]
    show ms.foldlM Reading.enter _ >>= _ = _
    rw [Reading.foldlM_enter_within hproper h.holds hnodup, hall]
    rfl
  · rintro before after again rfl hagain
    exact rejected_of_again hreadable hagain

/-- Everything is mentioned, and the level once more as one that there is not. -/
theorem parse_undoes_rendering_second_level :
    let options : Options := ⟨⟨"svc.toml"⟩, some .debug, true, some 7⟩
    let before : List Mention := [.apart .maxIterations "+007", .attached (.valued .config) "svc.toml"]
    let after : List Mention := [.dryRun, .apart .logLevel "debug"]
    let again : Mention := .attached (.valued .logLevel) "loud"
    options.Proper ∧ Renders (before ++ after) options ∧
      parse ["--max-iterations", "+007", "--config=svc.toml", "--dry-run", "--log-level", "debug"] =
        .ok options ∧
      again.option ∈ (before ++ after).map Mention.option ∧
      Rejected (parse ["--max-iterations", "+007", "--config=svc.toml", "--log-level=loud", "--dry-run",
        "--log-level", "debug"]) := by
  intro options before after again
  have hproper : options.Proper := ⟨by decide, by decide⟩
  have hrenders : Renders (before ++ after) options := by
    refine ⟨by decide, ?_, ?_⟩
    · rintro m hm
      simp only [before, after, List.cons_append, List.nil_append, List.mem_cons, List.not_mem_nil,
        or_false] at hm
      rcases hm with rfl | rfl | rfl | rfl
      · exact ⟨⟨7, rfl, 3, .inr (by decide)⟩, .inr (by decide)⟩
      · rfl
      · rfl
      · exact ⟨⟨.debug, rfl, rfl⟩, .inr (by decide)⟩
    · rintro (o | f) hk
      · cases o <;> exact absurd (by decide) hk
      · cases f with
        | dryRun => exact absurd (by decide) hk
        | help | version => trivial
  obtain ⟨hread, hagain⟩ := parse_undoes_rendering hproper hrenders
  exact ⟨hproper, hrenders, hread, by decide, hagain before after again rfl (by decide)⟩

end DaemonKeeper.CommandLine
