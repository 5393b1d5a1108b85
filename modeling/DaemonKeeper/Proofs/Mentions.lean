import DaemonKeeper.CommandLine
import DaemonKeeper.Proofs.Outcome
import Mathlib.Data.List.Nodup
import Mathlib.Data.List.TakeWhile
set_option autoImplicit false

/-!
# Mentions of options (SPEC §4.4)

Options may be mentioned on a command line in any order, each with a value that is attached or
stands apart.  A value that stands apart is settled by what comes next, which makes no difference in
the end: mentions are entered in turn.  An option that is mentioned twice is refused, whatever is
said of it.
-/

namespace DaemonKeeper.CommandLine

/-! ## Mentions -/

/-- An option as it stands among the arguments: with a value after an equals sign, with a value as
an argument of its own, or as the flag alone. -/
inductive Mention where
  | attached (k : Known) (value : String)
  | apart (o : Valued) (value : String)
  | dryRun
  deriving DecidableEq

namespace Mention

/-- What is mentioned. -/
def option : Mention → Known
  | attached k _ => k
  | apart o _ => .valued o
  | dryRun => .flag .dryRun

/-- The arguments that make the mention. -/
def words : Mention → List String
  | attached k value => ["--" ++ (k.name ++ "=" ++ value)]
  | apart o value => ["--" ++ (Known.valued o).name, value]
  | dryRun => ["--" ++ (Known.flag .dryRun).name]

end Mention

/-- A value that may be an argument of its own: a dash alone, or without a dash in front. -/
def StandsApart (value : String) : Prop := value = "-" ∨ value.toList.head? ≠ some '-'

/-- A mention of a form that the option has: a flag has no value, and a value that looks like an
option does not stand apart. -/
def Mention.Readable : Mention → Prop
  | attached (.valued _) _ => True
  | attached (.flag _) _ => False
  | apart _ value => StandsApart value
  | dryRun => True

/-! ## The form of the arguments -/

theorem Known.equals_notMem_name (k : Known) : '=' ∉ k.name.toList := by
  cases k with
  | valued o => cases o <;> decide
  | flag f => cases f <;> decide

theorem Known.ne_equals_of_mem_name (k : Known) : ∀ c ∈ k.name.toList, (c != '=') = true := by
  intro c hc
  rw [bne_iff_ne]
  rintro rfl
  exact k.equals_notMem_name hc

theorem Known.name_ne_nil (k : Known) : k.name.toList ≠ [] := by
  cases k with
  | valued o => cases o <;> decide
  | flag f => cases f <;> decide

namespace Argument

/-- Two dashes and more are an option. -/
theorem ofText_long {cs : List Char} {s : String} (hs : s.toList = '-' :: '-' :: cs) (hcs : cs ≠ []) :
    ofText s = .ofLong cs := by
  obtain ⟨c, rest, rfl⟩ := List.exists_cons_of_ne_nil hcs
  rw [ofText, hs]
  rfl

theorem ofText_bare (k : Known) : ofText ("--" ++ k.name) = .long k.name none := by
  rw [ofText_long (by simp) k.name_ne_nil, ofLong, List.takeWhile_eq_self_iff.mpr k.ne_equals_of_mem_name,
    List.dropWhile_eq_nil_iff.mpr k.ne_equals_of_mem_name, String.ofList_toList]

theorem ofText_attached (k : Known) (value : String) :
    ofText ("--" ++ (k.name ++ "=" ++ value)) = .long k.name (some value) := by
  have hs : ("--" ++ (k.name ++ "=" ++ value)).toList =
      '-' :: '-' :: (k.name.toList ++ '=' :: value.toList) := by simp
  rw [ofText_long hs (by simp), ofLong, List.takeWhile_append_of_pos k.ne_equals_of_mem_name,
    List.dropWhile_append_of_pos k.ne_equals_of_mem_name]
  simp

theorem ofText_apart {value : String} (h : StandsApart value) : ofText value = .plain value := by
  rcases h with rfl | h
  · decide
  · unfold ofText
    split <;> simp_all

theorem ofLong_ne_plain (cs : List Char) (text : String) : ofLong cs ≠ .plain text := by
  intro h
  unfold ofLong at h
  split at h <;> cases h

theorem standsApart_of_ofText {value text : String} (h : ofText value = .plain text) :
    StandsApart value := by
  unfold ofText at h
  split at h
  · cases h
  · exact absurd h (ofLong_ne_plain _ _)
  · cases h
  · rename_i hshort
    rcases hvalue : value.toList with _ | ⟨c, _ | ⟨letter, rest⟩⟩
    · exact .inr (by simp [hvalue])
    · by_cases hc : c = '-'
      · exact .inl (String.toList_inj.mp (hvalue.trans (by rw [hc]; rfl)))
      · exact .inr (by simp [hvalue, hc])
    · exact .inr (by simpa [hvalue] using fun hc : c = '-' => hshort letter rest (hc ▸ hvalue))

end Argument

/-! ## Reading in turn -/

namespace Reading

/-- What a mention makes of what was read before it, once that is settled. -/
def enter (r : Reading) : Mention → Except Refusal Reading
  | .attached (.valued o) value => r.take o value
  | .attached (.flag _) _ => .error .unexpectedValue
  | .apart o value => r.take o value
  | .dryRun => r.raise .dryRun

variable {r s : Reading} {m : Mention} {ms : List Mention} {rest : List String}

theorem settle_of_pending_none (h : r.pending = none) : r.settle = .ok r := by
  rw [settle, h]

theorem note_eq_ok_iff {k : Known} :
    r.note k = .ok s ↔ k ∉ r.given ∧ { r with given := k :: r.given } = s := by
  unfold note
  split <;> simp_all

/-- A value is taken for an option that was not given before, which it is from then on. -/
theorem take_spec {o : Valued} {value : String} (h : r.take o value = .ok s) :
    .valued o ∉ r.given ∧ s.given = .valued o :: r.given ∧ s.pending = r.pending := by
  obtain ⟨noted, hnote, h⟩ := bind_eq_ok_iff.mp h
  obtain ⟨options, -, h⟩ := bind_eq_ok_iff.mp h
  obtain ⟨hnew, rfl⟩ := note_eq_ok_iff.mp hnote
  cases h
  exact ⟨hnew, rfl, rfl⟩

theorem enter_spec (h : r.enter m = .ok s) :
    m.option ∉ r.given ∧ s.given = m.option :: r.given ∧ s.pending = r.pending := by
  match m, h with
  | .attached (.valued o) value, h => exact take_spec h
  | .apart o value, h => exact take_spec h
  | .dryRun, h =>
    obtain ⟨noted, hnote, h⟩ := bind_eq_ok_iff.mp h
    obtain ⟨hnew, rfl⟩ := note_eq_ok_iff.mp hnote
    cases h
    exact ⟨hnew, rfl, rfl⟩

/-- Entering mentions gives their options, each for the first time. -/
theorem given_of_foldlM_enter (h : ms.foldlM enter r = .ok s) (hgiven : r.given.Nodup) :
    s.given = (ms.map Mention.option).reverse ++ r.given ∧ s.given.Nodup := by
  induction ms generalizing r with
  | nil =>
    cases h
    exact ⟨rfl, hgiven⟩
  | cons m rest ih =>
    rw [List.foldlM_cons] at h
    obtain ⟨entered, henter, hrest⟩ := bind_eq_ok_iff.mp h
    obtain ⟨hnew, hm, -⟩ := enter_spec henter
    obtain ⟨hs, hnodup⟩ := ih hrest (hm ▸ List.nodup_cons.mpr ⟨hnew, hgiven⟩)
    exact ⟨by rw [hs, hm]; simp, hnodup⟩

theorem pending_of_settle (h : r.settle = .ok s) : s.pending = none := by
  unfold settle at h
  split at h
  · cases h
    assumption
  · cases h
  · exact (take_spec h).2.2

theorem finish_attached (o : Valued) (value : String) :
    r.finish ((Mention.attached (.valued o) value).words ++ rest) =
      r.settle >>= fun s => s.take o value >>= fun s => s.finish rest := by
  rw [Mention.words, List.singleton_append, finish, Argument.ofText_attached]
  simp only [long, Known.ofName?_name, bind_assoc]

theorem finish_apart {o : Valued} {value : String} (h : StandsApart value) :
    r.finish ((Mention.apart o value).words ++ rest) =
      r.settle >>= fun s => finish { s with pending := some (.held o value) } rest := by
  rw [Mention.words, List.cons_append, List.singleton_append, finish, Argument.ofText_bare]
  simp only [long, Known.ofName?_name, bind_assoc, pure_bind]
  congr 1
  funext s
  rw [finish, Argument.ofText_apart h]
  rfl

theorem finish_dryRun :
    r.finish (Mention.dryRun.words ++ rest) =
      r.settle >>= fun s => s.raise .dryRun >>= fun s => s.finish rest := by
  rw [Mention.words, List.singleton_append, finish, Argument.ofText_bare]
  simp only [long, Known.ofName?_name, bind_assoc]

theorem settle_held (h : s.pending = none) (o : Valued) (value : String) :
    settle { s with pending := some (.held o value) } = s.take o value := by
  obtain ⟨options, given, pending⟩ := s
  cases h
  rfl

/-- If the rest is read from what is settled, so is a mention with the rest behind it. -/
theorem finish_words_append {next : Reading → Except Refusal Options} (hm : m.Readable)
    (hrest : ∀ s : Reading, s.finish rest = s.settle >>= next) :
    r.finish (m.words ++ rest) = r.settle >>= fun s => s.enter m >>= next := by
  have hnext : ∀ {s s' : Reading}, r.settle = .ok s → s.enter m = .ok s' → s'.finish rest = next s' := by
    intro s s' hs henter
    rw [hrest, settle_of_pending_none ((enter_spec henter).2.2.trans (pending_of_settle hs))]
    rfl
  match m, hm with
  | .attached (.valued o) value, _ =>
    rw [finish_attached]
    exact bind_congr_ok fun s hs => bind_congr_ok fun s' => hnext hs
  | .apart o value, hm =>
    -- The value is only held; it is entered when the rest settles it.
    rw [finish_apart hm]
    refine bind_congr_ok fun s hs => ?_
    rw [hrest, settle_held (pending_of_settle hs)]
    rfl
  | .dryRun, _ =>
    rw [finish_dryRun]
    exact bind_congr_ok fun s hs => bind_congr_ok fun s' => hnext hs

/-- Mentions are entered in turn. -/
theorem finish_words (h : ∀ m ∈ ms, m.Readable) :
    r.finish (ms.flatMap Mention.words) =
      r.settle >>= fun s => ms.foldlM enter s >>= fun s => .ok s.options := by
  induction ms generalizing r with
  | nil => rfl
  | cons m rest ih =>
    obtain ⟨hm, hrest⟩ := List.forall_mem_cons.mp h
    rw [List.flatMap_cons, finish_words_append hm fun s => ih hrest]
    simp only [List.foldlM_cons, bind_assoc]

end Reading

/-! ## What is refused -/

/-- If there is no outcome, that is by a mistake: nobody asked for anything else. -/
def OnlyMistakes {α : Type} (x : Except Refusal α) : Prop :=
  ∀ refusal, x = .error refusal → refusal.exitCode = 2

/-- There is no outcome, by a mistake. -/
def Rejected {α : Type} (x : Except Refusal α) : Prop :=
  ∃ refusal, x = .error refusal ∧ refusal.exitCode = 2

section

variable {α β : Type} {x : Except Refusal α} {f : α → Except Refusal β}

theorem onlyMistakes_ok (a : α) : OnlyMistakes (.ok a) := nofun

theorem onlyMistakes_error {refusal : Refusal} (h : refusal.exitCode = 2) :
    OnlyMistakes (.error refusal : Except Refusal α) := by
  rintro _ ⟨⟩
  exact h

theorem OnlyMistakes.bind (hx : OnlyMistakes x) (hf : ∀ a, OnlyMistakes (f a)) :
    OnlyMistakes (x >>= f) := by
  intro refusal h
  rcases bind_eq_error_iff.mp h with h | ⟨a, -, h⟩
  · exact hx refusal h
  · exact hf a refusal h

/-- What follows on a part with mistakes at most need only be rejected. -/
theorem OnlyMistakes.bind_rejected (hx : OnlyMistakes x) (hf : ∀ a, Rejected (f a)) :
    Rejected (x >>= f) := by
  cases x with
  | error refusal => exact ⟨refusal, rfl, hx refusal rfl⟩
  | ok a => exact hf a

theorem rejected_error {refusal : Refusal} (h : refusal.exitCode = 2) :
    Rejected (.error refusal : Except Refusal α) := ⟨refusal, rfl, h⟩

theorem Rejected.bind (hx : Rejected x) : Rejected (x >>= f) := by
  obtain ⟨refusal, rfl, h⟩ := hx
  exact rejected_error h

theorem OnlyMistakes.rejected (hx : OnlyMistakes x) (h : ∀ a, x ≠ .ok a) : Rejected x := by
  cases x with
  | error refusal => exact ⟨refusal, rfl, hx refusal rfl⟩
  | ok a => exact absurd rfl (h a)

end

namespace Reading

variable {r : Reading} {m : Mention} {rest : List String}

theorem onlyMistakes_note (k : Known) : OnlyMistakes (r.note k) := by
  unfold note
  split
  · exact onlyMistakes_error rfl
  · exact onlyMistakes_ok _

theorem onlyMistakes_set (options : Options) (o : Valued) (value : String) :
    OnlyMistakes (options.set o value) := by
  cases o with
  | config =>
    rw [Options.set]
    split
    · exact onlyMistakes_error rfl
    · exact onlyMistakes_ok _
  | logLevel | maxIterations =>
    rw [Options.set]
    split
    · exact onlyMistakes_ok _
    · exact onlyMistakes_error rfl

theorem onlyMistakes_take (o : Valued) (value : String) : OnlyMistakes (r.take o value) :=
  (onlyMistakes_note _).bind fun _ => (onlyMistakes_set _ o value).bind fun _ => onlyMistakes_ok _

theorem onlyMistakes_settle : OnlyMistakes r.settle := by
  unfold settle
  split
  · exact onlyMistakes_ok _
  · exact onlyMistakes_error rfl
  · exact onlyMistakes_take _ _

theorem onlyMistakes_enter (m : Mention) : OnlyMistakes (r.enter m) := by
  match m with
  | .attached (.valued o) value => exact onlyMistakes_take o value
  | .attached (.flag _) _ => exact onlyMistakes_error rfl
  | .apart o value => exact onlyMistakes_take o value
  | .dryRun => exact (onlyMistakes_note _).bind fun _ => onlyMistakes_ok _

theorem onlyMistakes_foldlM_enter (ms : List Mention) : OnlyMistakes (ms.foldlM enter r) := by
  induction ms generalizing r with
  | nil => exact onlyMistakes_ok r
  | cons m rest ih => exact (onlyMistakes_enter m).bind fun _ => ih

theorem rejected_long (h : Rejected r.settle) (name : String) (attached : Option String) :
    Rejected (r.long name attached) := by
  unfold long
  split
  · exact rejected_error rfl
  · exact rejected_error rfl
  · exact h.bind
  · exact h.bind
  · exact h.bind

theorem rejected_short (h : Rejected r.settle) (letter : Char) : Rejected (r.short letter) := by
  unfold short
  split
  · exact rejected_error rfl
  · exact h.bind

/-- Whatever does not look like a value is refused where a value is awaited. -/
theorem rejected_of_awaiting {o : Valued} {value : String} (hr : r.pending = some (.awaiting o))
    (h : ¬ StandsApart value) : Rejected (r.finish (value :: rest)) := by
  have hsettle : Rejected r.settle := by
    rw [settle, hr]
    exact rejected_error rfl
  rw [finish]
  cases hform : Argument.ofText value with
  | escape =>
    dsimp only
    split
    · exact hsettle.bind
    · exact rejected_error rfl
  | long name attached => exact (rejected_long hsettle name attached).bind
  | short letter => exact (rejected_short hsettle letter).bind
  | plain text => exact absurd (Argument.standsApart_of_ofText hform) h

theorem rejected_of_not_readable (h : ¬ m.Readable) : Rejected (r.finish (m.words ++ rest)) := by
  cases m with
  | attached k value =>
    cases k with
    | valued o => exact absurd trivial h
    | flag f =>
      rw [Mention.words, List.singleton_append, finish, Argument.ofText_attached]
      simp only [long, Known.ofName?_name]
      exact rejected_error rfl
  | apart o value =>
    rw [Mention.words, List.cons_append, List.singleton_append, finish, Argument.ofText_bare]
    simp only [long, Known.ofName?_name, bind_assoc, pure_bind]
    exact onlyMistakes_settle.bind_rejected fun s => rejected_of_awaiting rfl h
  | dryRun => exact absurd trivial h

/-- What is rejected stays so behind a mention. -/
theorem rejected_words_append (hm : m.Readable) (hrest : ∀ s : Reading, Rejected (s.finish rest)) :
    Rejected (r.finish (m.words ++ rest)) := by
  match m, hm with
  | .attached (.valued o) value, _ =>
    rw [finish_attached]
    exact onlyMistakes_settle.bind_rejected fun s =>
      (onlyMistakes_take o value).bind_rejected hrest
  | .apart o value, hm =>
    rw [finish_apart hm]
    exact onlyMistakes_settle.bind_rejected fun s => hrest _
  | .dryRun, _ =>
    rw [finish_dryRun]
    exact onlyMistakes_settle.bind_rejected fun s =>
      (onlyMistakes_enter .dryRun).bind_rejected hrest

theorem rejected_flatMap_append {ms : List Mention} (hms : ∀ m ∈ ms, m.Readable)
    (hrest : ∀ s : Reading, Rejected (s.finish rest)) :
    Rejected (r.finish (ms.flatMap Mention.words ++ rest)) := by
  induction ms generalizing r with
  | nil => exact hrest r
  | cons m ms ih =>
    obtain ⟨hm, hms⟩ := List.forall_mem_cons.mp hms
    rw [List.flatMap_cons, List.append_assoc]
    exact rejected_words_append hm fun s => ih hms

end Reading

/-- Mentions are rejected if two of them are of one option. -/
theorem rejected_of_not_nodup {ms : List Mention} (hms : ∀ m ∈ ms, m.Readable)
    (h : ¬ (ms.map Mention.option).Nodup) : Rejected (parse (ms.flatMap Mention.words)) := by
  rw [parse, Reading.finish_words hms]
  refine OnlyMistakes.rejected ?_ fun options hoptions => h ?_
  · exact Reading.onlyMistakes_settle.bind fun r =>
      (Reading.onlyMistakes_foldlM_enter ms).bind fun _ => onlyMistakes_ok _
  · obtain ⟨_, ⟨⟩, hoptions⟩ := bind_eq_ok_iff.mp hoptions
    obtain ⟨s, hs, -⟩ := bind_eq_ok_iff.mp hoptions
    obtain ⟨hgiven, hnodup⟩ := Reading.given_of_foldlM_enter hs .nil
    rw [hgiven, List.append_nil] at hnodup
    exact List.nodup_reverse.mp hnodup

/-- One mention more of an option is rejected, in any form and wherever it stands. -/
theorem rejected_of_again {before after : List Mention} {again : Mention}
    (hms : ∀ m ∈ before ++ after, m.Readable)
    (hagain : again.option ∈ (before ++ after).map Mention.option) :
    Rejected (parse ((before ++ again :: after).flatMap Mention.words)) := by
  -- A mention that cannot be read is refused before it matters what was given.
  by_cases h : again.Readable
  · refine rejected_of_not_nodup ?_ fun hnodup => ?_
    · simpa [h, forall_and, or_imp] using hms
    · rw [List.map_append, List.map_cons, List.nodup_middle, ← List.map_append] at hnodup
      exact (List.nodup_cons.mp hnodup).1 hagain
  · rw [List.flatMap_append, List.flatMap_cons, parse]
    exact Reading.rejected_flatMap_append (fun m hm => hms m (List.mem_append_left _ hm))
      fun s => Reading.rejected_of_not_readable h

end DaemonKeeper.CommandLine
