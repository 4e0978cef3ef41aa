import TokoApi.Analytics.Sales
import TokoApi.Auth.AccessToken
import TokoApi.Auth.Atomic
import TokoApi.Auth.Sessions
import TokoApi.Cart.Frame
import TokoApi.Cart.Handover
import TokoApi.Catalog.Fresh
import TokoApi.Catalog.Path
import TokoApi.Checkout.Exact
import TokoApi.Checkout.Quotes
import TokoApi.Common.Idempotency
import TokoApi.Events.Bus
import TokoApi.Favorites.Toggle
import TokoApi.Notify.Attempts
import TokoApi.Notify.Body
import TokoApi.Notify.Delays
import TokoApi.Notify.Overlap
import TokoApi.Notify.Signature
import TokoApi.Notify.Stuck
import TokoApi.Payment.Amounts
import TokoApi.Payment.Atomic
import TokoApi.Queue.Names
import TokoApi.Queue.Replay
import TokoApi.Queue.Retry
import TokoApi.Queue.Schedule
import TokoApi.Queue.Visibility
import TokoApi.Ratelimit.Retry
import TokoApi.Resilience.Counters
import TokoApi.Resilience.Plain
import TokoApi.Resilience.Probes
import TokoApi.Shipping.Atomic
import TokoApi.Shop.Additions
import TokoApi.Shop.Duplicates
import TokoApi.Shop.Migrated
import TokoApi.Shop.Pages
import TokoApi.Shop.Stock
import TokoApi.Shop.Usages
import TokoApi.Tools.TenantGuard
import TokoApi.Voucher.Counts
import TokoApi.Voucher.Percent
import TokoApi.Voucher.Scope
