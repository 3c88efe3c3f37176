import ChainKVM.Robot.Tasks

/-!
# A concrete robot

One deployment of the agent, for the runs on which a property is seen to
fail: robot `robot-1` with its gateway's key, two tokens of one operator (`s1`
may control, `s2` may only view), three messages, and hardware that always
answers without an error. The decoder and the JWT parser are given by their
values at these texts.
-/

namespace ChainKVM.Robot.Sample

/-- The bytes of an ASCII text. -/
def bytes (text : String) : Bytes := text.toList.map fun ch => UInt8.ofNat ch.toNat

def drive : Bytes := bytes "\x7b\"type\":\"drive\",\"v\":1,\"w\":0,\"t\":1767225600000\x7d"

def eStop : Bytes := bytes "\x7b\"type\":\"e_stop\",\"t\":1767225600000\x7d"

def ping : Bytes := bytes "\x7b\"type\":\"ping\",\"seq\":1,\"t_mono\":0\x7d"

def decode : Decoder where
  base data :=
    if data = drive then some .drive
    else if data = eStop then some .eStop
    else if data = ping then some .ping
    else none
  drive data := if data = drive then some ⟨1, 0, 1767225600000⟩ else none
  kvmKey _ := none
  kvmMouse _ := none
  eStop data := if data = eStop then some ⟨1767225600000⟩ else none
  pong _ := none

/-- The gateway's public key. -/
def publicKey : List UInt8 :=
  [86, 134, 170, 97, 5, 14, 115, 214, 110, 224, 241, 44, 151, 249, 159, 14, 211, 81, 43, 95, 189,
    204, 25, 171, 142, 101, 44, 59, 128, 106, 41, 47]

/-- The token of session `s1`, signed by the gateway. -/
def token1 : String :=
  "eyJhbGciOiJFZERTQSJ9." ++
  "eyJzdWIiOiJkaWQ6a2V5Om9wIiwiYXVkIjoicm9ib3QtMSIsInNpZCI6InMxIiwic2NvcGUiOlsidGVsZW9wOmNvbnRyb2wi" ++
  "XSwiZXhwIjo0MTAyNDQ0ODAwfQ." ++
  "njkKWyc19y1XhAjy1lK_cAg76w7FfHp7SOeIUsfw-hxvNBlfJtarmwRWJpZ1PW5HMiHncXAZp7o7CZBKcdYEAQ"

/-- The token of session `s2`, signed by the gateway. -/
def token2 : String :=
  "eyJhbGciOiJFZERTQSJ9." ++
  "eyJzdWIiOiJkaWQ6a2V5Om9wIiwiYXVkIjoicm9ib3QtMSIsInNpZCI6InMyIiwic2NvcGUiOlsidGVsZW9wOnZpZXciXSwi" ++
  "ZXhwIjo0MTAyNDQ0ODAwfQ." ++
  "wevujguvM3MLs8IeN_gUTzsVCo-c2LzM7KtNzKP2diw3lsutcGzWx5wKV5VAUdwGjOryROU2SIC1qfEy_2uSAg"

def claims (sid scope : String) : Json.Members :=
  [("sub", .str "did:key:op"), ("aud", .str "robot-1"), ("sid", .str sid),
    ("scope", .arr [.str scope]), ("exp", .num 4102444800)]

/-- The two tokens verify under the gateway's key; any other text is
malformed. -/
def parse : JwtParse := fun token keyFunc _ _ =>
  match keyFunc .ed25519 with
  | .error _ => .error ⟨false, true, false, false⟩
  | .ok key =>
    if key ≠ publicKey then .error ⟨false, true, false, false⟩
    else if token = token1 then .ok ⟨.ed25519, claims "s1" "teleop:control", true⟩
    else if token = token2 then .ok ⟨.ed25519, claims "s2" "teleop:view", true⟩
    else .error ⟨false, false, true, false⟩

def ext : External := ⟨fun _ _ => .ok (), parse, decode⟩

def now : Time := unixMilli 1767225600000

/-- The defaults of the configuration. -/
def config : Agent.Config := ⟨"robot-1", 500, 10, 30000⟩

def validator : Option TokenValidator := some ⟨publicKey, "robot-1", 30 * second⟩

/-- The agent as the process starts. -/
def start : Agent := .init now config validator

/-- An offer whose connection is created and negotiated. -/
def offer (sid token : String) : Event := .task (.offer sid token [] (.ok ()) fun sdp => .ok sdp)

def connState (conn : Nat) (state : PeerConnectionState) : Event := .task (.connState conn state)

def message (ch : Nat) (data : Bytes) : Event := .task (.message ch data)

/-- Session `s1` is offered, connects and opens its data channel. -/
def signOn : List Event :=
  [offer "s1" token1, connState 0 .connected, .task (.dataChannel 0)]

/-- The info of session `s1`. -/
def info : Info := ⟨"s1", "did:key:op", "robot-1", ["teleop:control"], 4102444800 * second⟩

/-- The agent with session `s1` freshly activated. -/
def active : Agent := Machine.run (Agent.step ext) start signOn

end ChainKVM.Robot.Sample
