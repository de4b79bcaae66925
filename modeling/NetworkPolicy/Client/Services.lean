import NetworkPolicy.Client.Directory
import NetworkPolicy.Client.Tokens

/-! The services that the server asks, over HTTP. -/

namespace NetworkPolicy.Client

variable {τ α : Type}

/-- The reply to an inquiry; there always is one. -/
def reply (q : Inquiry τ α) (t : τ) : Reply α × τ :=
  let (r, t) := q.outcome t
  (.answer r, t)

/-- The services behind a transport. -/
def services (send : Transport τ) (tokens : Tokens) (directory : Directory) :
    Collaborators τ where
  checkToken token := reply (tokens.check send token)
  serviceToken := reply (tokens.issue send)
  appSpaces token apps := reply (directory.appSpaces send token apps)
  userSpaces token user := reply (directory.userSpaces send token user)
  liveApps token apps := reply (directory.liveApps send token apps)

end NetworkPolicy.Client
