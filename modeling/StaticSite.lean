import StaticSite.Main
import StaticSite.Markup.Serial
import StaticSite.Proofs.Command.Refusing
import StaticSite.Proofs.Config.Discovery
import StaticSite.Proofs.Config.Filling
import StaticSite.Proofs.Config.FirstProblem
import StaticSite.Proofs.Config.Template
import StaticSite.Proofs.Markup.Composition
import StaticSite.Proofs.Markup.Equality
import StaticSite.Proofs.Markup.Inert
import StaticSite.Proofs.Markup.Integers
import StaticSite.Proofs.Markup.Nesting
import StaticSite.Proofs.Markup.Reading
import StaticSite.Proofs.Markup.Replacing
import StaticSite.Proofs.Markup.Writes
import StaticSite.Proofs.Site.Acceptance
import StaticSite.Proofs.Site.Entries
import StaticSite.Proofs.Site.Links
import StaticSite.Proofs.Site.Protection
import StaticSite.Proofs.Site.Renaming
