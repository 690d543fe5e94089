import RateLimiter.Enforcer.Fleet
import RateLimiter.Enforcer.Refinement
import RateLimiter.Enforcer.Overshoot
import RateLimiter.Enforcer.Counter
import RateLimiter.Enforcer.Expiry
import RateLimiter.Enforcer.Staleness
import RateLimiter.Enforcer.Precision
import RateLimiter.Enforcer.Timeline
import RateLimiter.Enforcer.Outage
import RateLimiter.Management.Accountability
import RateLimiter.Management.AuditTrail
import RateLimiter.Management.Isolation
import RateLimiter.Management.KeyedMap
import RateLimiter.Management.Resolution
import RateLimiter.Management.Paging
import RateLimiter.Management.Outcomes
import RateLimiter.Management.Bootstrap
import RateLimiter.Management.ServiceIsolation
import RateLimiter.Console.TwoPersonReview
import RateLimiter.Console.Authority
import RateLimiter.Console.Attribution
import RateLimiter.Console.DefaultReview
import RateLimiter.Console.ReviewedPath
import RateLimiter.Console.ActionLog
import RateLimiter.Console.Approvals
import RateLimiter.Console.ServiceGate
import RateLimiter.Console.Registry
import RateLimiter.Console.WindowReset
import RateLimiter.Console.AuditBrowser
import RateLimiter.Console.ConfigHistory
import RateLimiter.Console.LimitValue
import RateLimiter.Console.Timestamps
import RateLimiter.Console.StructCodec
import RateLimiter.Frontend.Rbac
import RateLimiter.Enforcer.TenantIsolation
import RateLimiter.Region.Provenance
import RateLimiter.Region.Propagation
import RateLimiter.Region.OperatorEdit
import RateLimiter.Console.ResetEffect
import RateLimiter.Console.Desk
import RateLimiter.Console.Answers
import RateLimiter.Console.Sessions
import RateLimiter.Console.ReviewQueue
import RateLimiter.Console.LimitPages
import RateLimiter.Enforcer.Burst
import RateLimiter.Enforcer.Batch
import RateLimiter.Enforcer.Execution
import RateLimiter.Enforcer.Grace
import RateLimiter.Enforcer.Load
import RateLimiter.Enforcer.Failover
import RateLimiter.Frontend.WindowId
