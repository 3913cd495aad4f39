import Forecast.Assumption.Edit
import Forecast.Main
import Forecast.Proofs.Arguments
import Forecast.Proofs.Assumption.Current
import Forecast.Proofs.Assumption.Edited
import Forecast.Proofs.Assumption.Entry
import Forecast.Proofs.Assumption.Monthly
import Forecast.Proofs.Assumption.Seeded
import Forecast.Proofs.Assumption.Unsupported
import Forecast.Proofs.Command
import Forecast.Proofs.Compute.Funding
import Forecast.Proofs.Compute.Subscribers
import Forecast.Proofs.Compute.Timing
import Forecast.Proofs.Layout
import Forecast.Proofs.Linking.Sections
import Forecast.Proofs.Order.Layered
import Forecast.Proofs.Past
import Forecast.Proofs.Run.Downstream
import Forecast.Proofs.Run.Gathered
import Forecast.Proofs.Run.Ignored
import Forecast.Proofs.Run.Rearranged
import Forecast.Proofs.Run.Renamed
import Forecast.Proofs.Run.Reused
import Forecast.Proofs.Run.Spelled
import Forecast.Proofs.Statement.Annual
import Forecast.Proofs.Statement.BalanceSheet
import Forecast.Proofs.Statement.Contributors
import Forecast.Proofs.Statement.Copied
import Forecast.Proofs.Statement.Subtotals
import Forecast.Proofs.Symbols.Meaning
import Forecast.Proofs.Order.Cyclic
import Forecast.Proofs.Tokens
import Forecast.Proofs.Compute.Gathered
import Forecast.Proofs.Compute.Started
