import CommandDeck.Manifest.Lookup

/-!
# Sessions

A session is logged out or logged in; logged in, its local cache has been filled by a synchronisation
or not. Logging in again keeps what the cache holds. The cache is a copy of the published manifests,
as they were when it was filled.
-/

namespace CommandDeck

inductive SessionState where
  | loggedOut
  | loggedIn (synced : Bool)
  deriving DecidableEq

inductive SessionError where
  | invalidKey
  | notLoggedIn
  deriving DecidableEq

namespace SessionError

def message : SessionError → String
  | invalidKey => "Invalid API key format. Expected starts with \"nxs_\""
  | notLoggedIn => "Error: You must be logged in. Run \"nexus login <key>\" first."

end SessionError

/-- A key is accepted when it begins with these characters. -/
def keyStart : List Char := ['n', 'x', 's', '_']

namespace SessionState

def name : SessionState → String
  | loggedOut => "logged-out"
  | loggedIn false => "logged-in:empty"
  | loggedIn true => "logged-in:synced"

def isLoggedIn : SessionState → Bool
  | loggedOut => false
  | loggedIn _ => true

def login (state : SessionState) (key? : Option String) : Except SessionError SessionState :=
  if key?.any fun key => keyStart.isPrefixOf key.toList then
    match state with
    | loggedOut => .ok (loggedIn false)
    | loggedIn synced => .ok (loggedIn synced)
  else .error .invalidKey

/-- Only a session that is logged in may go on. -/
def requireLogin (state : SessionState) : Except SessionError Unit :=
  if state.isLoggedIn then .ok () else .error .notLoggedIn

end SessionState

/-- A session with its local cache. -/
structure Session where
  state : SessionState
  cache : List Manifest

namespace Session

def initial : Session := ⟨.loggedOut, []⟩

/-- Fills the cache with a snapshot of the published manifests. -/
def sync (s : Session) (snapshot : List Manifest) : Except SessionError Session := do
  s.state.requireLogin
  return ⟨.loggedIn true, snapshot⟩

end Session

end CommandDeck
