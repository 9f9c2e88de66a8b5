import BrokerClient.Request.Assembly
import BrokerClient.Service.Handover
import BrokerClient.Http.Script
import BrokerClient.Json.Ascii
import BrokerClient.Health.Poll
import BrokerClient.Lazy.Script
import BrokerClient.Hierarchy.Operation
import BrokerClient.Yaml.Reader
import BrokerClient.Configuration.Source
import BrokerClient.Proofs.Exchange
import BrokerClient.Proofs.Hierarchy.Action
import BrokerClient.Proofs.Hierarchy.Follow
import BrokerClient.Proofs.Hierarchy.Filling
import BrokerClient.Proofs.Hierarchy.Fetching
import BrokerClient.Proofs.Hierarchy.Loading
import BrokerClient.Proofs.Hierarchy.Failure
import BrokerClient.Proofs.Hierarchy.Change
import BrokerClient.Proofs.Hierarchy.Step
import BrokerClient.Proofs.Hierarchy.Membership
import BrokerClient.Proofs.Hierarchy.Destruction
import BrokerClient.Proofs.Hierarchy.Escape
import BrokerClient.Proofs.Hierarchy.Honesty
import BrokerClient.Proofs.Hierarchy.Mirror
import BrokerClient.Proofs.Hierarchy.Coherence
import BrokerClient.Proofs.Http.Form
import BrokerClient.Proofs.Http.Refusal
import BrokerClient.Proofs.Hierarchy.Latest
import BrokerClient.Proofs.Hierarchy.Epoch
import BrokerClient.Proofs.Lazy.Object
import BrokerClient.Proofs.Service.Translation
import BrokerClient.Proofs.Service.Conflict
import BrokerClient.Proofs.Hierarchy.Creating
import BrokerClient.Proofs.Hierarchy.Preflight
import BrokerClient.Proofs.Hierarchy.Loaded
import BrokerClient.Proofs.Hierarchy.Uniqueness
import BrokerClient.Proofs.Health.Timeline
import BrokerClient.Proofs.Health.Verdict
import BrokerClient.Proofs.Health.Rounding
import BrokerClient.Proofs.Health.Seconds
import BrokerClient.Proofs.Health.Pacing
import BrokerClient.Proofs.Health.Survival
import BrokerClient.Proofs.Request.Offence
import BrokerClient.Proofs.Service.Unreadable
import BrokerClient.Proofs.Link.Declaration
import BrokerClient.Proofs.Representation.Links
import BrokerClient.Proofs.Representation.Listing
import BrokerClient.Proofs.Hierarchy.Removal
import BrokerClient.Proofs.Hierarchy.Hearing
import BrokerClient.Proofs.Hierarchy.Alias
import BrokerClient.Proofs.Hierarchy.Reload
import BrokerClient.Proofs.Hierarchy.Development
import BrokerClient.Proofs.Hierarchy.Identity
import BrokerClient.Proofs.Hierarchy.Offering
import BrokerClient.Proofs.Hierarchy.Posting
import BrokerClient.Proofs.Service.Address
import BrokerClient.Proofs.Service.Handover
import BrokerClient.Proofs.Configuration.Precedence
