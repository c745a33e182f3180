import AuthnKit.Foundation.Prog
import AuthnKit.Foundation.Interleave
import AuthnKit.Foundation.Time
import AuthnKit.Core.Error
import AuthnKit.Foundation.Consult
import AuthnKit.Core.Identity
import AuthnKit.Core.Request
import AuthnKit.Core.Chain
import AuthnKit.Core.ChainDecision
import AuthnKit.Foundation.Table
import AuthnKit.Cache.Credential
import AuthnKit.Foundation.Text
import AuthnKit.Oidc.Error
import AuthnKit.Oidc.Provider
import AuthnKit.Mechanisms.ApiToken
import AuthnKit.Mechanisms.Basic
import AuthnKit.Mechanisms.Bearer
import AuthnKit.Mechanisms.OrderIrrelevance
import AuthnKit.Mechanisms.CacheRuns
import AuthnKit.Mechanisms.ApiTokenRuns
import AuthnKit.Mechanisms.BasicRuns
import AuthnKit.Mechanisms.Revisit
import AuthnKit.Mechanisms.NeverCrossed
import AuthnKit.Mechanisms.CacheLifetime
import AuthnKit.Oidc.ProviderRuns
import AuthnKit.Oidc.RefreshInvariant
import AuthnKit.Oidc.RefreshSafety
import AuthnKit.Foundation.Base64
import AuthnKit.Foundation.FormUrlencoded
import AuthnKit.Oidc.Login
import AuthnKit.Oidc.LoginRuns
import AuthnKit.Oidc.RedirectSafety
import AuthnKit.Oidc.LoginBinding
import AuthnKit.Mechanisms.StaticTokens
import AuthnKit.Oidc.LoneProvider
import AuthnKit.Cache.History
import AuthnKit.Cache.Lookup
import AuthnKit.Cache.Recency
import AuthnKit.Adapters.Cookies
import AuthnKit.Foundation.Url
import AuthnKit.Oidc.RedirectOrigin
import AuthnKit.Mechanisms.Session
import AuthnKit.Mechanisms.SessionRedirect
import AuthnKit.Foundation.CookieJar
import AuthnKit.Oidc.Browser
import AuthnKit.Mechanisms.LoginLoop
import AuthnKit.Mechanisms.PasswordLifetime
import AuthnKit.Oidc.BrowserRuns
import AuthnKit.Oidc.SingleUse
import AuthnKit.Core.Authorization
import AuthnKit.Mechanisms.PublicScope
import AuthnKit.Core.AuthorizationSyntax
import AuthnKit.Adapters.RoutePattern
import AuthnKit.Adapters.CookieText
import AuthnKit.Foundation.JsonText
import AuthnKit.Oidc.ProtectionCookie
import AuthnKit.Core.Env
import AuthnKit.Oidc.EnvConfig
import AuthnKit.Mechanisms.Introspection
import AuthnKit.Cache.Inserts
import AuthnKit.Mechanisms.SessionChallenge
import AuthnKit.Foundation.Mutex
import AuthnKit.Foundation.Justified
import AuthnKit.Oidc.RefreshProgress
import AuthnKit.Oidc.Discovery
import AuthnKit.Oidc.StaleKeys
import AuthnKit.Foundation.Refinement
import AuthnKit.Mechanisms.IntrospectionRuns
import AuthnKit.Foundation.SetCookieText
import AuthnKit.Adapters.SetCookie
import AuthnKit.Oidc.CookieTexts
import AuthnKit.Adapters.Responses
import AuthnKit.Foundation.Product
import AuthnKit.Adapters.Middleware
import AuthnKit.Adapters.GatewayRuns
import AuthnKit.Adapters.Installation
import AuthnKit.Mechanisms.Disabled
import AuthnKit.Foundation.RwLock
import AuthnKit.Cache.Locking
import AuthnKit.Cache.LockingRuns
import AuthnKit.Adapters.SharedProvider
