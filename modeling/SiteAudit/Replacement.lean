import SiteAudit.Text.Alphanumeric
import SiteAudit.Text.Basic

/-!
# Safe replacements

A replacement puts one text for every occurrence of another. Occurrences are found from left to
right and do not overlap. For some replacements an occurrence counts only as a whole word: no
character of a word stands directly before or after it. The safe replacements are a fixed list,
applied one after the other.
-/

namespace SiteAudit

/-- A text to look for and the text to put in its place. -/
structure Replacement where
  id : Text
  target : Text
  /-- The target counts only where no word goes on before or after it. -/
  wholeWord : Bool
  substitute : Text
  deriving DecidableEq, Repr

namespace Replacement

/-- Does no word reach over the edge next to the given character? -/
def isEdge (next : Option Char) : Bool := !next.any Text.isWordChar

/-- Does an occurrence of the target start here, after the given character? -/
def occursAt (r : Replacement) (before : Option Char) (t : Text) : Bool :=
  match Text.dropPrefix? r.target t with
  | some after => !r.wholeWord || (isEdge before && isEdge after.head?)
  | none => false

/-- Replaces the occurrences in a text after the given character, of which the first `skip`
characters belong to an occurrence that has been replaced already. -/
def applyFrom (r : Replacement) : Nat → Option Char → Text → Text
  | _, _, [] => []
  | skip + 1, _, c :: rest => applyFrom r skip (some c) rest
  | 0, before, c :: rest =>
    if r.occursAt before (c :: rest) then
      r.substitute ++ applyFrom r (r.target.length - 1) (some c) rest
    else c :: applyFrom r 0 (some c) rest

/-- Replaces all occurrences in a text. -/
def apply (r : Replacement) (t : Text) : Text := r.applyFrom 0 none t

/-- The distribution script on a foreign host. -/
def remoteTemplate : Text := "https://distill.pub/template.v2.js"

/-- The safe replacements, in the order in which they are applied. -/
def safe : List Replacement :=
  [⟨"font_weight_bold", "font-weight-bold", true, "font-bold"⟩,
    ⟨"font_weight_medium", "font-weight-medium", true, "font-medium"⟩,
    ⟨"font_weight_lighter", "font-weight-lighter", true, "font-light"⟩,
    ⟨"distill_local_template", remoteTemplate, false, "/assets/js/distillpub/template.v2.js"⟩,
    ⟨"tailwind_entry_rename", "assets/tailwind/input.css", false, "assets/tailwind/app.css"⟩]

/-- The safe replacement of the given name. -/
def named? (id : Text) : Option Replacement := safe.find? (·.id == id)

/-- Applies replacements one after the other, and tells which of them changed the text. -/
def applyAll : List Replacement → Text → Text × List Text
  | [], t => (t, [])
  | r :: rules, t =>
    let changed := r.apply t
    let (result, fired) := applyAll rules changed
    (result, if changed = t then fired else r.id :: fired)

end Replacement

end SiteAudit
