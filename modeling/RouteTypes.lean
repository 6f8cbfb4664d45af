import RouteTypes.Main
import RouteTypes.Tree.Outline
import RouteTypes.Json.Reader
import RouteTypes.Proofs.Route.RereadingPrograms
import RouteTypes.Proofs.Route.Resolution
import RouteTypes.Proofs.Typing.Identity
import RouteTypes.Proofs.Route.Reports
import RouteTypes.Proofs.Typing.Aliases
import RouteTypes.Proofs.Tree.Layout
import RouteTypes.Proofs.Route.Making
import RouteTypes.Proofs.Route.SecondPass
import RouteTypes.Proofs.Route.Respacing
import RouteTypes.Proofs.Route.Manifest
import RouteTypes.Proofs.Route.Unfolding
import RouteTypes.Proofs.Route.Fields
import RouteTypes.Proofs.Token.Names
import RouteTypes.Proofs.Token.Covering
import RouteTypes.Proofs.Typing.Bounds
import RouteTypes.Proofs.Tree.Precedence
import RouteTypes.Proofs.Grammar.Conditionals
import RouteTypes.Proofs.Grammar.Refusals
import RouteTypes.Proofs.Tree.Tightness
import RouteTypes.Proofs.Typing.Unions
import RouteTypes.Proofs.Typing.Naming
import RouteTypes.Proofs.Typing.Functions
import RouteTypes.Proofs.Typing.Histories
import RouteTypes.Proofs.Typing.Needs
import RouteTypes.Proofs.Typing.Repeats
import RouteTypes.Proofs.Text.Positions
import RouteTypes.Proofs.Tree.Asked
