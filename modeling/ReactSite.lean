import ReactSite.Text.Blank
import ReactSite.Text.Case
import ReactSite.Text.Quoted
import ReactSite.Text.Utf8
import ReactSite.Text.Replace
import ReactSite.Path.Lexical
import ReactSite.Path.Basic
import ReactSite.Files.Action
import ReactSite.Naming
import ReactSite.Route
import ReactSite.Jsx
import ReactSite.Attributes
import ReactSite.Markup.Xml
import ReactSite.Html.Token
import ReactSite.Html.Page
import ReactSite.Mapping
import ReactSite.Page.Content
import ReactSite.Router
import ReactSite.Config.Settings
import ReactSite.Watch
import ReactSite.Yaml.Document
import ReactSite.Command.Standard
import ReactSite.Main
import ReactSite.Proofs.Expressions
import ReactSite.Proofs.Survival
import ReactSite.Proofs.Scripts
import ReactSite.Proofs.Reading
import ReactSite.Proofs.Agreement
import ReactSite.Proofs.Trail
import ReactSite.Proofs.Coverage
import ReactSite.Proofs.Destinations
import ReactSite.Proofs.Effects
import ReactSite.Proofs.Accounting
import ReactSite.Proofs.Documents
import ReactSite.Proofs.Navigation
import ReactSite.Proofs.Placing
import ReactSite.Proofs.Keeping
import ReactSite.Proofs.Room
import ReactSite.Proofs.Layout
import ReactSite.Proofs.Rebuilding
import ReactSite.Proofs.Upkeep
import ReactSite.Proofs.Watching
import ReactSite.Proofs.Repeating
import ReactSite.Proofs.Isolation
import ReactSite.Proofs.Confinement
import ReactSite.Proofs.Removal
import ReactSite.Proofs.Declarations
import ReactSite.Proofs.Hyperlinks
import ReactSite.Proofs.Belonging
import ReactSite.Proofs.Identifiers
import ReactSite.Proofs.Addresses
import ReactSite.Proofs.Attempts
import ReactSite.Proofs.Specifiers
import ReactSite.Proofs.Templates
import ReactSite.Proofs.Titles
import ReactSite.Proofs.Searching
import ReactSite.Proofs.Committing
import ReactSite.Proofs.Literals
import ReactSite.Proofs.Reporting
import ReactSite.Proofs.Renaming
import ReactSite.Proofs.Canonical
import ReactSite.Proofs.Assigning
import ReactSite.Proofs.Overriding
