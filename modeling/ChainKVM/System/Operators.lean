import ChainKVM.Gateway.Startup
import ChainKVM.System.Authority

/-!
# Who can move a robot of a gateway that `main` has started

Under the default policy the authority behind a session (`Record.Authorised`)
is a credential that calls its holder an operator or an admin. `ByOperators`
follows this from the robot back to the request: an active session has a token
that says the same, the token was handed out, and some request for the same
operator, robot and scope came with such a credential. Nothing was verified of
the credential, so it is what the text says that counts, not who signed it.
-/

namespace ChainKVM.System

open Gateway (CapabilityTokenClaims Deployment ForOperator PolicyRule RevocationCache)
open Machine (Always Steps always_of_steps)

/-- A token was handed out for what an operator's request asked for. -/
def Record.ForOperator (w : Setting) (r : Record) (claims : CapabilityTokenClaims) : Prop :=
  claims ∈ r.issued ∧ ∃ body,
    Gateway.ForOperator w.process.deployment.jose claims.sub claims.aud claims.scope body

/-- Every active session and every motion goes back to the request of an
operator. -/
structure Record.ByOperators (w : Setting) (r : Record) : Prop where
  session : ∀ peerId l info, r.network.robots.get peerId = some l →
    l.agent.shared.sessionMgr.info = some info →
      ∃ claims, r.ForOperator w claims ∧ Vouches claims info
  motion : ∀ peerId l call, r.network.robots.get peerId = some l →
    call ∈ l.agent.shared.calls → call.isMotion = true →
      ∃ claims, r.ForOperator w claims ∧ Controls l.agent.shared.sessionMgr.robotID claims

variable {w : Setting} {computeRulesHash : List PolicyRule → String}

theorem Record.Granted.forOperator (hmain : w.process.deployment.FromMain computeRulesHash)
    {r : Record} {claims : CapabilityTokenClaims} (h : r.Granted w claims) :
    r.ForOperator w claims :=
  ⟨h.1, hmain.forOperator h.2⟩

/-- The sample gateway is such a gateway. -/
theorem Sample.fromMain : Sample.setting.process.deployment.FromMain
    fun _ => "a46bf15aa032e8ce83439fe369f6f3b977cc51ae545b3393b3d06362663e6bd4" :=
  ⟨rfl, 0, rfl⟩

end ChainKVM.System
