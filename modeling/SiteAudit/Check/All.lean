import SiteAudit.Check.Contract
import SiteAudit.Check.Legacy
import SiteAudit.Check.Manifests
import SiteAudit.Check.Overrides
import SiteAudit.Check.RemoteLoader

/-!
# The checks of an audit
-/

namespace SiteAudit.Check

/-- The checks, in the order in which they are run. -/
def all : List Check :=
  [Manifests.check, Contract.check, Legacy.assetCheck, Legacy.patternCheck, RemoteLoader.check,
    Overrides.check]

/-- The check of the given name. -/
def named? (id : Text) : Option Check := all.find? (·.id == id)

end SiteAudit.Check
