import Headmaster.Process
import Headmaster.Process.Pool
import Headmaster.Process.Trace
import Headmaster.Process.Turns
import Headmaster.Process.Serial
import Headmaster.Process.Sum
import Headmaster.Process.Crash
import Headmaster.Process.Faults
import Headmaster.Process.Among
import Headmaster.Process.Ends
import Headmaster.Process.Ledger
import Headmaster.Process.After
import Headmaster.Disk
import Headmaster.Json
import Headmaster.Json.Strings
import Headmaster.Json.Order
import Headmaster.Settings
import Headmaster.Text
import Headmaster.Kubernetes
import Headmaster.Text.Lowercase
import Headmaster.Jsonc
import Headmaster.Shell
import Headmaster.Policy.Editor
import Headmaster.Policy.Meaning
import Headmaster.Policy.Halves
import Headmaster.Policy.Pruning
import Headmaster.Policy.Exact
import Headmaster.Policy.Rendering
import Headmaster.Policy.Equality
import Headmaster.Headscale
import Headmaster.Scim.Types
import Headmaster.Scim.Storage
import Headmaster.Scim.Storage.Rollback
import Headmaster.Scim.Durability
import Headmaster.Scim.Services
import Headmaster.Scim.Rules
import Headmaster.Scim.Membership
import Headmaster.Scim.Session
import Headmaster.Scim.SelfHeal
import Headmaster.Scim.Protocol
import Headmaster.Scim.LostUpdate
import Headmaster.Scim.Alone
import Headmaster.Scim.Serial
import Headmaster.Scim.Names
import Headmaster.Scim.Projection
import Headmaster.Scim.Accounts
import Headmaster.Scim.Deletion
import Headmaster.Scim.Filter
import Headmaster.Scim.Startup
import Headmaster.Operator.Annotations
import Headmaster.Operator.Objects
import Headmaster.Operator.Contribution
import Headmaster.Operator.PolicySync
import Headmaster.Operator.Convergence
import Headmaster.Operator.Interleaving
import Headmaster.Operator.Merge
import Headmaster.Operator.Tags
import Headmaster.Operator.Config
import Headmaster.Operator.EgressDns
import Headmaster.Operator.IngressClass
import Headmaster.Operator.Proxy.Calls
import Headmaster.Operator.Proxy.Support
import Headmaster.Operator.Proxy.AuthKey
import Headmaster.Operator.Proxy.Parent
import Headmaster.Operator.Proxy.Ingress
import Headmaster.Operator.Proxy.Service
import Headmaster.Operator.Proxy.Footprint
import Headmaster.Operator.Proxy.Effects
import Headmaster.Operator.Proxy.Walk
import Headmaster.Operator.Proxy.Runs
import Headmaster.Operator.Proxy.Mints
import Headmaster.Operator.Proxy.Identity
import Headmaster.Operator.Proxy.Expiry
import Headmaster.Operator.Proxy.Shapes
import Headmaster.Operator.Proxy.Cluster
import Headmaster.Operator.Proxy.Consumers
import Headmaster.Operator.Proxy.Keys
import Headmaster.Operator.Proxy.Nodes
import Headmaster.Operator.Proxy.Release
import Headmaster.Operator.Proxy.Orphans
import Headmaster.Operator.Proxy.Rewrites
import Headmaster.Operator.Proxy.Routes
import Headmaster.Operator.Proxy.Names
import Headmaster.Operator.Proxy.Forwarding
import Headmaster.Operator.Proxy.Override
import Headmaster.Operator.Proxy.KeyCalls
import Headmaster.Operator.Proxy.Savings
import Headmaster.Operator.Proxy.Pods
import Headmaster.Operator.Proxy.Supplies
import Headmaster.Operator.Proxy.Privileges
import Headmaster.Operator.Proxy.Credentials
import Headmaster.Operator.Labels
import Headmaster.Operator.Conditions
import Headmaster.Operator.Instance.Objects
import Headmaster.Operator.Instance.Reconcile
import Headmaster.Operator.Instance.Cluster
import Headmaster.Operator.Instance.Walk
import Headmaster.Operator.Instance.InPlace
import Headmaster.Operator.Instance.Secrets
import Headmaster.Operator.Instance.Calls
import Headmaster.Operator.Instance.Events
import Headmaster.Operator.Instance.Handover
import Headmaster.Operator.Webhook
import Headmaster.Operator.Webhook.Configtest
import Headmaster.Operator.Instance.Admission
