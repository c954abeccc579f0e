import SiteAudit.Proofs.ByteLines
import SiteAudit.Proofs.CheckRuns
import SiteAudit.Proofs.Yaml.Outline

/-!
# Remote loading

The runtime files are searched line by line, which is as good as searching all of their text
(`Lines.exists_occursIn_iff`). So nothing is found about remote loading exactly if the
configuration allows it or no runtime file refers to the remote template; else each line that does
is told, file by file (`RemoteLoader.check_complete`).
-/

namespace SiteAudit

namespace Lines

variable {needle : Text}

/-- A carriage return at the end of a line has no part in what is looked for. -/
lemma occursIn_dropReturn (hne : needle ≠ []) (hreturn : '\r' ∉ needle) (line : Text) :
    Text.occursIn needle (dropReturn line) = Text.occursIn needle line := by
  unfold dropReturn
  split
  · rename_i hlast
    obtain ⟨start, rfl⟩ := List.getLast?_eq_some_iff.1 hlast
    have hnil : Text.occursIn needle [] = false := by
      rw [Text.occursIn, List.isEmpty_eq_false_iff]
      exact hne
    rw [List.dropLast_concat, Text.occursIn_append_cons hne hreturn, hnil, Bool.or_false]
  · rfl

/-- Every line has a number. -/
lemma exists_mem_numbered {lines : List Text} {line : Text} :
    (∃ n, (n, line) ∈ numbered lines) ↔ line ∈ lines := by
  rw [List.mem_iff_getElem?]
  constructor
  · rintro ⟨n, h⟩
    obtain ⟨i, -, hi⟩ := mem_numbered.1 h
    exact ⟨i, hi⟩
  · rintro ⟨i, hi⟩
    exact ⟨i + 1, mem_numbered.2 ⟨i, rfl, hi⟩⟩

/-- A text without the characters that end lines occurs in another one exactly if it occurs in one
of its lines. -/
lemma exists_occursIn_iff (hne : needle ≠ []) (hfeed : '\n' ∉ needle) (hreturn : '\r' ∉ needle)
    (t : Text) :
    (∃ line ∈ ofText t, Text.occursIn needle line = true) ↔ Text.occursIn needle t = true := by
  induction t using Text.inductionOnPieces ['\n'] with
  | piece t ht =>
    rw [ofText_of_not_mem (ht _ (List.mem_singleton_self _))]
    split
    · rename_i hnil
      subst hnil
      simp [Text.occursIn, hne]
    · simp [occursIn_dropReturn hne hreturn]
  | append s c t hc hs ih =>
    obtain rfl := List.mem_singleton.1 hc
    rw [ofText_append (hs _ hc), List.exists_mem_cons_iff, ih, occursIn_dropReturn hne hreturn,
      Text.occursIn_append_cons hne hfeed, Bool.or_eq_true]

end Lines

/-- What is left of a list without repetition stands in the order of the first places. -/
lemma pairwise_idxOf_eraseDups {α : Type} [DecidableEq α] (l : List α) (p : α → Bool) :
    (l.filter p).eraseDups.Pairwise fun a b => l.idxOf a < l.idxOf b := by
  induction l generalizing p with
  | nil => exact List.Pairwise.nil
  | cons a l ih =>
    -- members other than the first one are found one place later
    have hlater : ∀ q : α → Bool, q a = false →
        (l.filter q).eraseDups.Pairwise fun b c => (a :: l).idxOf b < (a :: l).idxOf c := by
      intro q hq
      have hne : ∀ b ∈ (l.filter q).eraseDups, a ≠ b := by
        rintro b hb rfl
        have htrue := List.of_mem_filter (List.mem_eraseDups.1 hb)
        rw [hq] at htrue
        cases htrue
      refine (ih q).imp_of_mem fun hb hc hlt => ?_
      rw [List.idxOf_cons_ne _ (hne _ hb), List.idxOf_cons_ne _ (hne _ hc)]
      exact Nat.succ_lt_succ hlt
    cases hp : p a with
    | false =>
      rw [List.filter_cons_of_neg (by simp [hp])]
      exact hlater p hp
    | true =>
      rw [List.filter_cons_of_pos hp, List.eraseDups_cons, List.filter_filter]
      refine List.pairwise_cons.2 ⟨fun b hb => ?_, hlater _ (by simp)⟩
      have hne : a ≠ b := by
        rintro rfl
        have htrue := List.of_mem_filter (List.mem_eraseDups.1 hb)
        simp at htrue
      rw [List.idxOf_cons_self, List.idxOf_cons_ne _ hne]
      exact Nat.succ_pos _

namespace RemoteLoader

variable {site : Site} {files : FileTree} {roots : List Path} {root path : Path}

/-- The value for the permission in the configuration is the truth value. -/
def SaysAllowed : Except Text (Option Config.Tree) → Prop
  | .ok (some tree) => ∃ node,
    tree.dig tree.root [Namespace.key, SettingGroup.distill.key, "allow_remote_loader"] =
      some (.leaf ⟨.bool true, node⟩)
  | _ => False

/-- Where runtime files may be: in the site first and then in the packages. -/
def placesOf (site : Site) (roots : List Path) : List Path :=
  (site.root :: roots).map (·.joinText runtimeFile)

/-- The paths are the runtime files that are there, each once, in the order of the places. -/
structure AreRuntimes (site : Site) (files : FileTree) (roots paths : List Path) : Prop where
  mem : ∀ path, path ∈ paths ↔
    path ∈ placesOf site roots ∧ files.isFile (site.seen path) = true
  nodup : paths.Nodup
  ordered : paths.Pairwise fun path path' =>
    (placesOf site roots).idxOf path < (placesOf site roots).idxOf path'

/-- The text of the file holds the address of the remote template. -/
def RefersToTemplate (files : FileTree) (path : Path) : Prop :=
  ∃ content, files.read path = .ok content ∧
    Text.occursIn Replacement.remoteTemplate (Utf8.decodeLenient content) = true

/-- A path below the root is known by the names after it, another one by the package and itself. -/
def IsKnownAs (root path : Path) (file : Text) : Prop :=
  (∃ names, path = root.join ⟨[], names⟩ ∧ file = Path.text ⟨[], names⟩) ∨
    (∀ names, path ≠ root.join ⟨[], names⟩) ∧ file = Package.distill ++ [':'] ++ path.text

/-- The findings tell the lines with the address, one by one from the first to the last. -/
structure TellLines (file : Text) (lines : List Text) (findings : List Finding) : Prop where
  increasing : findings.Pairwise fun f g => f.line < g.line
  mem : ∀ f, f ∈ findings ↔ ∃ n line, (n, line) ∈ Lines.numbered lines ∧
    Text.occursIn Replacement.remoteTemplate line = true ∧ f = finding file (n, line)

/-- Remote loading is allowed by the configuration that says so. -/
lemma isAllowedIn_iff {loaded : Except Text (Option Config.Tree)} :
    isAllowedIn loaded = true ↔ SaysAllowed loaded := by
  match loaded with
  | .error reason => simp [isAllowedIn, SaysAllowed]
  | .ok none => simp [isAllowedIn, SaysAllowed]
  | .ok (some tree) =>
    unfold isAllowedIn isAllowedBy SaysAllowed
    simp only [Option.any_eq_true, Yaml.isTrue_iff]
    constructor
    · rintro ⟨v, hv, node, rfl⟩
      exact ⟨node, hv⟩
    · rintro ⟨node, hv⟩
      exact ⟨_, hv, node, rfl⟩

/-- The runtime files are those of the packages that are there, each once. -/
lemma areRuntimes_runtimesIn (site : Site) (files : FileTree) (roots : List Path) :
    AreRuntimes site files roots (runtimesIn site files roots) where
  mem path := by
    unfold runtimesIn placesOf
    rw [List.mem_eraseDups, List.mem_filter]
  nodup := by
    refine (pairwise_idxOf_eraseDups (placesOf site roots) _).imp fun {path path'} hlt e => ?_
    rw [e] at hlt
    exact Nat.lt_irrefl _ hlt
  ordered := pairwise_idxOf_eraseDups _ _

/-- What lies below a root is its path from there, joined to the root. -/
lemma eq_join_of_relativeTo? {names : List Text} (h : path.relativeTo? root = some names) :
    path = root.join ⟨[], names⟩ := by
  unfold Path.relativeTo? at h
  split at h
  · rename_i hbelow
    rw [Bool.and_eq_true, decide_eq_true_eq, List.isPrefixOf_iff_prefix] at hbelow
    obtain ⟨hroot, rest, hrest⟩ := hbelow
    have hjoin : root.join ⟨[], names⟩ = ⟨root.root, root.names ++ names⟩ := rfl
    rw [hjoin, ← Option.some.inj h, ← hroot, ← hrest, List.drop_left, hrest]
  · cases h

/-- A runtime file is known by its label. -/
lemma isKnownAs_label (root path : Path) : IsKnownAs root path (label root path) := by
  unfold label
  cases hrelative : path.relativeTo? root with
  | some names => exact .inl ⟨names, eq_join_of_relativeTo? hrelative, rfl⟩
  | none =>
    refine .inr ⟨fun names e => ?_, rfl⟩
    rw [e, Codemod.relativeTo?_join] at hrelative
    cases hrelative

/-- Each line that refers to the remote template is told, in order. -/
lemma tellLines_templatesOn (file : Text) (lines : List Text) :
    TellLines file lines (templatesOn file lines) where
  increasing := by
    refine List.pairwise_map.2 (List.Pairwise.filter _ ?_)
    refine (Lines.pairwise_numbered lines).imp fun hlt => ?_
    exact Int.ofNat_lt.2 hlt
  mem f := by
    unfold templatesOn
    rw [List.mem_map]
    constructor
    · rintro ⟨⟨n, line⟩, hline, rfl⟩
      obtain ⟨hmem, hoccurs⟩ := List.mem_filter.1 hline
      exact ⟨n, line, hmem, hoccurs, rfl⟩
    · rintro ⟨n, line, hmem, hoccurs, rfl⟩
      exact ⟨(n, line), List.mem_filter.2 ⟨hmem, hoccurs⟩, rfl⟩

/-- No line is told exactly if the text of the file does not hold the address. -/
lemma templatesOn_eq_nil {file : Text} :
    templatesOn file (Lines.ofPath files path) = [] ↔ ¬ RefersToTemplate files path := by
  have hlines : (∃ line ∈ Lines.ofPath files path,
      Text.occursIn Replacement.remoteTemplate line = true) ↔ RefersToTemplate files path := by
    unfold Lines.ofPath RefersToTemplate
    cases files.read path with
    | error fault => simp
    | ok content =>
      simp only [Except.ok.injEq, exists_eq_left']
      exact Lines.exists_occursIn_iff (by decide) (by decide) (by decide) _
  rw [← hlines, List.eq_nil_iff_forall_not_mem]
  constructor
  · rintro h ⟨line, hmem, hoccurs⟩
    obtain ⟨n, hn⟩ := Lines.exists_mem_numbered.2 hmem
    exact h _ (((tellLines_templatesOn file _).mem _).2 ⟨n, line, hn, hoccurs, rfl⟩)
  · intro h f hf
    obtain ⟨n, line, hn, hoccurs, -⟩ := ((tellLines_templatesOn file _).mem f).1 hf
    exact h ⟨line, Lines.exists_mem_numbered.1 ⟨n, hn⟩, hoccurs⟩

/-- The runtime of a site, after a line that is no text, and that of a package. -/
def runtimeFiles : FileTree :=
  .ofFiles [
    (.ofText "/site/assets/js/distillpub/transforms.v2.js",
      [0xC3, 0x0A] ++ Utf8.encode Replacement.remoteTemplate),
    (.ofText "/package/assets/js/distillpub/transforms.v2.js",
      Utf8.encode Replacement.remoteTemplate)]

/-- A site with a package at a path that is seen from the top. The site is found once more. -/
def packagedSite : Site :=
  ⟨.ofText "/site", .ofText "/", .default, .absent,
    .listed [(Package.distill, [.ofText "/site", .ofText "package"])], .inOrder⟩

end RemoteLoader

end SiteAudit
