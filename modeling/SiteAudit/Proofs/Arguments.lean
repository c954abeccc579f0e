import SiteAudit.CommandLine.Invocation
import SiteAudit.Proofs.Run

/-!
# Commands with a root

An argument after the option for the root is its value only if it does not look like an option
(`Argument.IsValue`). The levels before the command go over it as well, and find nothing wrong
with it that the command would not (`parse_command`, `IsValue.exists_ofText_outer`).
-/

namespace SiteAudit.CommandLine

variable {level : Level} {t root : Text} {texts : List Text} {c : Command}

namespace Argument

/-- Is the argument taken as the value of an option before it? It does not start with a hyphen, or
is one, or stands for no option and has the form of a negative number or a space in it. -/
def IsValue (level : Level) (t : Text) : Prop :=
  t.head? ≠ some '-' ∨ t = ['-'] ∨
    byName? level t = none ∧ candidates level t = [] ∧ isWordLike t = true

instance (level : Level) (t : Text) : Decidable (IsValue level t) :=
  inferInstanceAs (Decidable (_ ∨ _ ∨ _))

/-! ### One argument -/

/-- An argument with a hyphen in front is looked up by its name, and else by what it may be short
for. -/
lemma ofText_of_hyphen (hhead : t.head? = some '-') (hne : t ≠ ['-']) :
    ofText level t = match byName? level t with
      | some argument => .ok argument
      | none => match candidates level t with
        | [] => .ok (if isWordLike t then .word t else .unknown t)
        | [(name, f, attached)] => .ok (.known t f (isShort name) attached)
        | several => .error (.ambiguous t (several.map (·.1))) := by
  have hword : ¬ (t.head? != some '-' || t == ['-']) = true := by
    simp [hhead, hne]
  unfold ofText
  exact if_neg hword

/-- The argument of a name is that name. -/
lemma text_of_byName? {a : Argument} (h : byName? level t = some a) :
    a.text = t ∧ ∀ t', a ≠ .word t' := by
  unfold byName? at h
  split at h
  · cases h
    exact ⟨rfl, fun _ h => by cases h⟩
  · split at h
    · cases h
    · obtain ⟨f, -, rfl⟩ := Option.map_eq_some_iff.1 h
      exact ⟨rfl, fun _ h => by cases h⟩

/-- An argument is understood as a word exactly if it can be a value. -/
lemma ofText_eq_word : ofText level t = .ok (.word t) ↔ IsValue level t := by
  by_cases hword : t.head? ≠ some '-' ∨ t = ['-']
  · refine iff_of_true ?_ (hword.imp_right .inl)
    unfold ofText
    rw [if_pos (by simpa using hword)]
  obtain ⟨hhead, hne⟩ := not_or.1 hword
  rw [not_not] at hhead
  have hvalue : IsValue level t ↔
      byName? level t = none ∧ candidates level t = [] ∧ isWordLike t = true := by
    unfold IsValue
    rw [← or_assoc, or_iff_right hword]
  rw [hvalue, ofText_of_hyphen hhead hne]
  cases hname : byName? level t with
  | some a =>
    refine iff_of_false ?_ fun h => by cases h.1
    intro h
    exact (text_of_byName? hname).2 t (Except.ok.inj h)
  | none =>
    dsimp only
    rcases hcandidates : candidates level t with _ | ⟨⟨name, f, attached⟩, _ | ⟨_, _⟩⟩
    · cases isWordLike t <;> simp
    · simp
    · simp

/-- An argument that is understood keeps its text. -/
lemma text_of_ofText {a : Argument} (h : ofText level t = .ok a) : a.text = t := by
  by_cases hword : t.head? ≠ some '-' ∨ t = ['-']
  · have hvalue : IsValue level t := hword.imp_right .inl
    cases h.symm.trans (ofText_eq_word.2 hvalue)
    rfl
  obtain ⟨hhead, hne⟩ := not_or.1 hword
  rw [ofText_of_hyphen (not_not.1 hhead) hne] at h
  cases hname : byName? level t with
  | some b =>
    rw [hname] at h
    cases h
    exact (text_of_byName? hname).1
  | none =>
    rw [hname] at h
    dsimp only at h
    rcases hcandidates : candidates level t with _ | ⟨⟨name, f, attached⟩, _ | ⟨_, _⟩⟩
    all_goals
      rw [hcandidates] at h
      cases h
    · cases isWordLike t <;> rfl
    · rfl

/-! ### The arguments of a level -/

/-- Arguments are understood one after the other. -/
lemma ofTexts_cons (hne : t ≠ ['-', '-']) :
    ofTexts level (t :: texts) = do
      let argument ← ofText level t
      return argument :: (← ofTexts level texts) := by
  rw [ofTexts, if_neg hne]

/-- Arguments that are understood keep their texts. -/
lemma map_text_of_ofTexts {arguments : List Argument} (h : ofTexts level texts = .ok arguments) :
    arguments.map (·.text) = texts := by
  induction texts generalizing arguments with
  | nil =>
    cases h
    rfl
  | cons t texts ih =>
    by_cases hdashes : t = ['-', '-']
    · rw [ofTexts, if_pos hdashes] at h
      cases h
      rw [hdashes, List.map_cons, List.map_map]
      exact congrArg _ (List.map_id texts)
    · rw [ofTexts_cons hdashes] at h
      obtain ⟨a, ha, h⟩ := bind_eq_ok.1 h
      obtain ⟨rest, hrest, h⟩ := bind_eq_ok.1 h
      cases h
      rw [List.map_cons, text_of_ofText ha, ih hrest]

/-- Arguments are understood if each one is. -/
lemma exists_ofTexts (h : ∀ t ∈ texts, ∃ a, ofText level t = .ok a) :
    ∃ arguments, ofTexts level texts = .ok arguments := by
  induction texts with
  | nil => exact ⟨[], rfl⟩
  | cons t texts ih =>
    obtain ⟨⟨a, ha⟩, hrest⟩ := List.forall_mem_cons.1 h
    by_cases hdashes : t = ['-', '-']
    · rw [ofTexts, if_pos hdashes]
      exact ⟨_, rfl⟩
    · obtain ⟨arguments, harguments⟩ := ih hrest
      rw [ofTexts_cons hdashes, ha, harguments]
      exact ⟨_, rfl⟩

/-! ### The levels before the command -/

/-- An argument that stands for at most one option is understood. -/
lemma exists_ofText (h : (candidates level t).length ≤ 1) : ∃ a, ofText level t = .ok a := by
  by_cases hword : t.head? ≠ some '-' ∨ t = ['-']
  · exact ⟨.word t, ofText_eq_word.2 (hword.imp_right .inl)⟩
  obtain ⟨hhead, hne⟩ := not_or.1 hword
  rw [ofText_of_hyphen (not_not.1 hhead) hne]
  cases byName? level t with
  | some a => exact ⟨a, rfl⟩
  | none =>
    rcases hcandidates : candidates level t with _ | ⟨⟨name, f, attached⟩, _ | ⟨_, _⟩⟩
    · exact ⟨_, rfl⟩
    · exact ⟨_, rfl⟩
    · simp [hcandidates] at h

/-- What an argument may be short for depends on the names of the level alone. -/
lemma exists_candidates (t : Text) :
    ∃ g : Text × Flag → Option Candidate,
      ∀ level, candidates level t = level.names.filterMap g := by
  unfold candidates
  cases isShort t with
  | true => exact ⟨_, fun _ => rfl⟩
  | false => exact ⟨_, fun _ => rfl⟩

/-- The levels before a command understand what stands for none of its options: they have no
option of their own but the version. -/
lemma exists_ofText_outer (h : candidates (.command c) t = []) :
    (∃ a, ofText .program t = .ok a) ∧ ∃ a, ofText .task t = .ok a := by
  obtain ⟨g, hg⟩ := exists_candidates t
  rw [hg, List.filterMap_eq_nil_iff] at h
  have hshort : g ("-h".toList, .help) = none := h _ (by cases c <;> decide)
  have hlong : g ("--help".toList, .help) = none := h _ (by cases c <;> decide)
  have hprogram : Level.program.names =
      [("-h".toList, .help), ("--help".toList, .help), ("--version".toList, .version)] := by
    decide
  have htask : Level.task.names = [("-h".toList, .help), ("--help".toList, .help)] := by
    decide
  constructor
  · refine exists_ofText ?_
    rw [hg, hprogram, List.filterMap_cons_none hshort, List.filterMap_cons_none hlong]
    exact List.length_filterMap_le g _
  · refine exists_ofText ?_
    rw [hg, htask, List.filterMap_cons_none hshort, List.filterMap_cons_none hlong]
    exact Nat.zero_le 1

/-- A value of the command is understood by the levels before. -/
lemma IsValue.exists_ofText_outer (h : IsValue (.command c) t) :
    (∃ a, ofText .program t = .ok a) ∧ ∃ a, ofText .task t = .ok a := by
  rcases h with hhead | rfl | ⟨-, hcandidates, -⟩
  · exact ⟨⟨_, ofText_eq_word.2 (.inl hhead)⟩, _, ofText_eq_word.2 (.inl hhead)⟩
  · exact ⟨⟨_, rfl⟩, _, rfl⟩
  · exact Argument.exists_ofText_outer hcandidates

end Argument

namespace Invocation
open Argument

/-- A word leads to the next level if the arguments after it are understood. -/
lemma read_word (hchoices : level.choices ≠ []) (hword : t.head? ≠ some '-') :
    read level (t :: texts) =
      (usage (ofTexts level texts)).map fun _ => ⟨.none, [], some (t, texts)⟩ := by
  have hne : t ≠ ['-', '-'] := by
    rintro rfl
    exact hword rfl
  unfold read
  rw [ofTexts_cons hne, ofText_eq_word.2 (.inl hword)]
  cases hrest : ofTexts level texts with
  | error e => rfl
  | ok arguments =>
    have hempty : level.choices.isEmpty = false := by
      rwa [Bool.eq_false_iff, Ne, List.isEmpty_iff]
    show readFrom level (.word t :: arguments) .start = _
    rw [readFrom, hempty, if_neg Bool.false_ne_true]
    unfold Reading.enter
    rw [map_text_of_ofTexts hrest]
    rfl

/-- The arguments after a command are read by the command, once the levels before it have
understood them. -/
lemma parse_command :
    parse ("upgrade".toList :: c.name :: texts) = (do
      let _ ← usage (ofTexts .program (c.name :: texts))
      let _ ← usage (ofTexts .task texts)
      let reading ← read (.command c) texts
      finish (some ⟨c, reading.choices⟩) reading.unknown) := by
  have hname : c.name.head? ≠ some '-' := by
    cases c <;> decide
  unfold parse
  rw [read_word (by decide) (by decide)]
  cases ofTexts .program (c.name :: texts) with
  | error e => rfl
  | ok _ =>
    show parseTask [] (c.name :: texts) = _
    unfold parseTask
    rw [read_word (by decide) hname]
    cases ofTexts .task texts with
    | error e => rfl
    | ok _ =>
      cases c <;> rfl

/-! ### The root of a command -/

/-- The option for the root is known to every command. -/
lemma ofText_root :
    ofText (.command c) "--root".toList = .ok (.known "--root".toList .root false .nothing) := by
  cases c <;> rfl

/-- Two hyphens alone are no value. -/
lemma not_isValue_dashes : ¬ IsValue (.command c) ['-', '-'] := by
  cases c <;> decide

/-- A value after the option for the root is the root. -/
lemma ofTexts_root (h : IsValue (.command c) root) :
    ofTexts (.command c) ("--root".toList :: root :: texts) =
      (ofTexts (.command c) texts).map fun arguments =>
        .known "--root".toList .root false .nothing :: .word root :: arguments := by
  have hne : root ≠ ['-', '-'] := by
    rintro rfl
    exact not_isValue_dashes h
  rw [ofTexts_cons (by decide), ofText_root, ofTexts_cons hne, ofText_eq_word.2 h]
  cases ofTexts (.command c) texts <;> rfl

/-- Without a value after it the option for the root is misused. -/
lemma readFrom_root_of_not_isValue (h : ¬ IsValue (.command c) root) {arguments : List Argument}
    (harguments : ofTexts (.command c) (root :: texts) = .ok arguments) (r : Reading) :
    readFrom (.command c) (.known "--root".toList .root false .nothing :: arguments) r =
      .error (.usage (.valueMissing .root)) := by
  by_cases hdashes : root = ['-', '-']
  · rw [hdashes, ofTexts, if_pos rfl] at harguments
    cases harguments
    rfl
  · rw [ofTexts_cons hdashes] at harguments
    obtain ⟨a, ha, harguments⟩ := bind_eq_ok.1 harguments
    obtain ⟨_, -, harguments⟩ := bind_eq_ok.1 harguments
    cases harguments
    cases a with
    | word t =>
      cases text_of_ofText ha
      exact absurd (ofText_eq_word.1 ha) h
    | dashes => rfl
    | known => rfl
    | unknown => rfl

/-- The arguments for the result on a root as JSON, without a look for packages. -/
def jsonArguments (root : Text) : List Text := ["--root", root, "--json", "--no-plugins"]

/-- The arguments of an audit. -/
def auditArguments (root : Text) : List Text :=
  "upgrade".toList :: "audit".toList :: jsonArguments root

/-- The option for a dry run, if it is one. -/
def dryArguments (dryRun : Bool) : List Text := if dryRun then ["--dry-run"] else []

/-- The arguments of a safe upgrade. -/
def applyArguments (root : Text) (dryRun : Bool) : List Text :=
  "upgrade".toList :: "apply".toList :: "--safe".toList ::
    (jsonArguments root ++ dryArguments dryRun)

/-- The levels before a command understand its arguments if these are values or options. -/
lemma parse_of_read {reading : Reading}
    (htexts : ∀ t ∈ texts, (∃ a, ofText .program t = .ok a) ∧ ∃ a, ofText .task t = .ok a)
    (hread : read (.command c) texts = .ok reading) :
    parse ("upgrade".toList :: c.name :: texts) =
      finish (some ⟨c, reading.choices⟩) reading.unknown := by
  have hname : ∃ a, ofText .program c.name = .ok a := by
    cases c <;> exact ⟨_, rfl⟩
  obtain ⟨_, hprogram⟩ :=
    exists_ofTexts (List.forall_mem_cons.2 ⟨hname, fun t h => (htexts t h).1⟩)
  obtain ⟨_, htask⟩ := exists_ofTexts fun t h => (htexts t h).2
  rw [parse_command, hprogram, htask, hread]
  rfl

/-- What a command cannot read is a misuse, if the levels before it do not find one. -/
lemma parse_of_read_error (hread : ∃ cause, read (.command c) texts = .error (.usage cause)) :
    ∃ cause, parse ("upgrade".toList :: c.name :: texts) = .error (.usage cause) := by
  obtain ⟨cause, hread⟩ := hread
  rw [parse_command, hread]
  cases ofTexts .program (c.name :: texts) with
  | error e => exact ⟨e, rfl⟩
  | ok _ =>
    cases ofTexts .task texts with
    | error e => exact ⟨e, rfl⟩
    | ok _ => exact ⟨cause, rfl⟩

/-- The levels before a command understand its root and the options beside it. -/
lemma exists_ofText_of_mem (h : IsValue (.command c) root) (ht : t ∈ jsonArguments root) :
    (∃ a, ofText .program t = .ok a) ∧ ∃ a, ofText .task t = .ok a := by
  unfold jsonArguments at ht
  simp only [List.mem_cons, List.not_mem_nil, or_false] at ht
  rcases ht with rfl | rfl | rfl | rfl
  · exact ⟨⟨_, rfl⟩, _, rfl⟩
  · exact h.exists_ofText_outer
  · exact ⟨⟨_, rfl⟩, _, rfl⟩
  · exact ⟨⟨_, rfl⟩, _, rfl⟩

/-- An audit is chosen with its root. -/
lemma parse_auditArguments (h : IsValue (.command .audit) root) :
    parse (auditArguments root) =
      .ok (some ⟨.audit, ⟨some root, true, true, false, false, false, false⟩⟩) := by
  have hread : read (.command .audit) (jsonArguments root) =
      .ok ⟨⟨some root, true, true, false, false, false, false⟩, [], none⟩ := by
    unfold read jsonArguments
    rw [ofTexts_root h]
    rfl
  exact (parse_of_read (c := .audit) (fun _ => exists_ofText_of_mem h) hread).trans rfl

/-- A safe upgrade is chosen with its root. -/
lemma parse_applyArguments (h : IsValue (.command .apply) root) (dryRun : Bool) :
    parse (applyArguments root dryRun) =
      .ok (some ⟨.apply, ⟨some root, true, true, false, false, true, dryRun⟩⟩) := by
  have hread : read (.command .apply)
      ("--safe".toList :: (jsonArguments root ++ dryArguments dryRun)) =
      .ok ⟨⟨some root, true, true, false, false, true, dryRun⟩, [], none⟩ := by
    unfold read jsonArguments
    rw [ofTexts_cons (by decide), List.cons_append, List.cons_append, ofTexts_root h]
    cases dryRun <;> rfl
  refine (parse_of_read (c := .apply) ?_ hread).trans rfl
  refine List.forall_mem_cons.2 ⟨⟨⟨_, rfl⟩, _, rfl⟩, List.forall_mem_append.2
    ⟨fun _ => exists_ofText_of_mem h, ?_⟩⟩
  cases dryRun with
  | false => exact fun _ ht => absurd ht List.not_mem_nil
  | true => exact List.forall_mem_singleton.2 ⟨⟨_, rfl⟩, _, rfl⟩

/-- Without a root that is a value the arguments of an audit are misused. -/
lemma parse_auditArguments_of_not_isValue (h : ¬ IsValue (.command .audit) root) :
    ∃ cause, parse (auditArguments root) = .error (.usage cause) := by
  refine parse_of_read_error (c := .audit) ?_
  unfold read jsonArguments
  rw [ofTexts_cons (by decide), ofText_root]
  cases harguments : ofTexts (.command .audit) [root, "--json", "--no-plugins"] with
  | error e => exact ⟨e, rfl⟩
  | ok arguments => exact ⟨_, readFrom_root_of_not_isValue h harguments .start⟩

/-- Without a root that is a value the arguments of a safe upgrade are misused. -/
lemma parse_applyArguments_of_not_isValue (h : ¬ IsValue (.command .apply) root) (dryRun : Bool) :
    ∃ cause, parse (applyArguments root dryRun) = .error (.usage cause) := by
  have hsafe : ofText (.command .apply) "--safe".toList =
      .ok (.known "--safe".toList .safe false .nothing) := rfl
  refine parse_of_read_error (c := .apply) ?_
  unfold read jsonArguments
  rw [ofTexts_cons (by decide), hsafe, List.cons_append, ofTexts_cons (by decide), ofText_root]
  cases harguments : ofTexts (.command .apply)
      ([root, "--json", "--no-plugins"] ++ dryArguments dryRun) with
  | error e => exact ⟨e, rfl⟩
  | ok arguments =>
    exact ⟨_, readFrom_root_of_not_isValue h harguments
      ⟨⟨none, false, false, false, false, true, false⟩, [], none⟩⟩

end Invocation

end SiteAudit.CommandLine
