import CredentialBroker.Runs.Tokens
import CredentialBroker.Runs.Slots
import CredentialBroker.Runs.Capacity
import CredentialBroker.Runs.Bounds
import CredentialBroker.Runs.Isolation
import CredentialBroker.Usage.Holds
import CredentialBroker.Usage.StateWriter
import CredentialBroker.Filter.Gate
import CredentialBroker.Filter.CountedOnce
import CredentialBroker.Filter.Registrar
import CredentialBroker.Chain.Credentials
import CredentialBroker.Protocol.Frame
import CredentialBroker.Protocol.Channel
import CredentialBroker.Usage.PublicSpend
import CredentialBroker.Usage.Trailing
import CredentialBroker.Usage.Waiting
import CredentialBroker.Budget.Periods
import CredentialBroker.Usage.Shown
import CredentialBroker.Proxy.Headers
import CredentialBroker.Proxy.UsageTap
import CredentialBroker.Runs.Records
import CredentialBroker.Oidc.Called
import CredentialBroker.Subjects
import CredentialBroker.Prices.Monotone
import CredentialBroker.Usage.Clamped
import CredentialBroker.Usage.Listed
import CredentialBroker.Usage.Lives
import CredentialBroker.Filter.Covered
import CredentialBroker.Operators.Admission
import CredentialBroker.Login.AllOrNothing
import CredentialBroker.Login.Sole
import CredentialBroker.Proxy.Broker
import CredentialBroker.Proxy.Gateway
import CredentialBroker.Tasks.Progress
import CredentialBroker.Tasks.Files
import CredentialBroker.Tasks.Slots
