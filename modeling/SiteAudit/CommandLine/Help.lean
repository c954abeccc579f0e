import SiteAudit.CommandLine.Option
import SiteAudit.Result

/-!
# Help

What the program says about its usage, in lines of at most eighty columns.
-/

namespace SiteAudit.CommandLine

/-- The line that is shown when nothing can be done. -/
def usageLine : Text := "Usage: al-folio-upgrade upgrade [audit|apply --safe|report] [--no-fail]"

/-- The version of the program, with its name. -/
def versionLine : Text := "al-folio-upgrade " ++ version

/-- The lines of the help for the options that all commands have. -/
def sharedHelp : List Text :=
  ["options:",
    "  -h, --help     show this help message and exit",
    "  --root ROOT    Project root to audit (default: current directory).",
    "  --json         Print the upgrade result JSON to stdout instead of the",
    "                 summary.",
    "  --no-plugins   Do not probe for installed al_folio_core / al_folio_distill",
    "                 packages.",
    "  -v, --verbose  Debug logging on stderr."]

/-- The lines of the help for a level. -/
def Level.help : Level → List Text
  | .program =>
    ["usage: al-folio-upgrade [-h] [--version] \x7bupgrade\x7d ...",
      "",
      "Pre-upgrade audit and safe codemods for al-folio sites.",
      "",
      "positional arguments:",
      "  \x7bupgrade\x7d",
      "    upgrade   Audit or migrate a site for v1.x.",
      "",
      "options:",
      "  -h, --help  show this help message and exit",
      "  --version   show program's version number and exit"]
  | .task =>
    ["usage: al-folio-upgrade upgrade [-h] \x7baudit,apply,report\x7d ...",
      "",
      "positional arguments:",
      "  \x7baudit,apply,report\x7d",
      "    audit               Report contract drift; exit 1 on blocking findings.",
      "    apply               Apply deterministic codemods, then re-audit.",
      "    report              Regenerate the upgrade report.",
      "",
      "options:",
      "  -h, --help            show this help message and exit"]
  | .command .audit =>
    ["usage: al-folio-upgrade upgrade audit [-h] [--root ROOT] [--json]".toList,
      "                                      [--no-plugins] [-v] [--no-fail]".toList,
      []]
      ++ sharedHelp
      ++ ["  --no-fail      Do not fail even when blocking findings exist.".toList]
  | .command .apply =>
    ["usage: al-folio-upgrade upgrade apply [-h] [--root ROOT] [--json]".toList,
      "                                      [--no-plugins] [-v] [--safe] [--dry-run]".toList,
      []]
      ++ sharedHelp
      ++ ["  --safe         Apply only deterministic safe codemods.".toList,
        "  --dry-run      List files that would change without rewriting them.".toList]
  | .command .report =>
    ["usage: al-folio-upgrade upgrade report [-h] [--root ROOT] [--json]".toList,
      "                                       [--no-plugins] [-v]".toList,
      []]
      ++ sharedHelp

end SiteAudit.CommandLine
