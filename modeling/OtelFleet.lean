import OtelFleet.Pipelines.Theorems.Reading
import OtelFleet.Pipelines.Theorems.CopyForward
import OtelFleet.Pipelines.Theorems.Slugs
import OtelFleet.Pipelines.Theorems.Rollout
import OtelFleet.Store.Theorems.Transactions
import OtelFleet.Pipelines.Theorems.Closed
import OtelFleet.Pipelines.Theorems.Frame
import OtelFleet.Pipelines.Theorems.Metrics
import OtelFleet.Collector.Theorems.Tenantstamp
import OtelFleet.Collector.Theorems.Tenantauth
import OtelFleet.Opamp.Theorems.Rollout
import OtelFleet.Opamp.Theorems.Connections
import OtelFleet.Opamp.Theorems.Repeats
import OtelFleet.Opamp.Theorems.Handover
import OtelFleet.Api.Theorems.AgentConfig
import OtelFleet.Api.Theorems.RolledOut
import OtelFleet.Pgnotify
import OtelFleet.Api.Theorems.Unreliable
import OtelFleet.Api.Theorems.Webhooks
import OtelFleet.Api.Theorems.Users
import OtelFleet.Store.Theorems.Administration
import OtelFleet.Store.Theorems.Deletion
import OtelFleet.Auth.Theorems.Issuers
import OtelFleet.Api.Theorems.Dashboard
import OtelFleet.Ingestauth.Theorems.Validate
import OtelFleet.Pipelines.Theorems.Order
import OtelFleet.Collector.Theorems.Retry
import OtelFleet.Scim.Theorems.Listing
import OtelFleet.Scim.Theorems.Patch
import OtelFleet.Scim.Theorems.Atomic
import OtelFleet.Theorems.Query
import OtelFleet.Theorems.Audit
import OtelFleet.Otelfleetctl.Theorems.Export
import OtelFleet.Theorems.Billing
import OtelFleet.Tenants.Theorems.Calls
import OtelFleet.Api.Theorems.Customers
import OtelFleet.Webhooks.Theorems.Queue
import OtelFleet.Web.Theorems.WaterfallOrder
import OtelFleet.Web.Theorems.Slug
import OtelFleet.Collector.Theorems.KeyCache
import OtelFleet.Tenants.Theorems.Tokens
