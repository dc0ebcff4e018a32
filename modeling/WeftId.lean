import WeftId.Utils.BackgroundTasks
import WeftId.Auth.BackupCodes
import WeftId.Auth.CutOff
import WeftId.Auth.EnhancedPolicy
import WeftId.Auth.ForcedReset
import WeftId.Auth.Invitation
import WeftId.Auth.Revocation
import WeftId.Groups.Access
import WeftId.Groups.Concurrency
import WeftId.Groups.Umbrella
import WeftId.OAuth.AuthorizeEndpoint
import WeftId.OAuth.Ceilings
import WeftId.OAuth.DeviceGrant
import WeftId.OAuth.EndedSessions
import WeftId.OAuth.LogoutDeliveries
import WeftId.Oidc.LoginState
import WeftId.Oidc.DomainBindings
import WeftId.Oidc.IdTokens
import WeftId.Oidc.UpstreamLogout
import WeftId.Saml.Replay
import WeftId.Scim.ConcurrentCreates
import WeftId.Scim.ConcurrentPasses
import WeftId.Scim.FilterPaths
import WeftId.Scim.MissedPushes
import WeftId.Users.DepartedIdps
import WeftId.Users.PrimaryEmails
import WeftId.Users.Recovery
import WeftId.Users.SuperAdmins
import WeftId.Utils.OutboundFetch
import WeftId.Utils.RateLimit
import WeftId.ForwardAuth.Handover
import WeftId.Keys.Certificates
import WeftId.Oidc.KeyFetches
import WeftId.Utils.Redirects
