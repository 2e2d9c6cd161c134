import RunAlexDb.Model.Server

/-!
# Greeting — the server's first packet

HandshakeV10 with the 20 bytes of the scramble in two parts, with and without the
offer of TLS, and the scramble itself, which has no zero byte.
-/

namespace RunAlexDb

open Text

-- ---------------------------------------------------------------------------
-- generate_scramble
-- ---------------------------------------------------------------------------

/-- The random bytes with 1 for each 0. -/
def generateScramble (random : Bytes) : Bytes := random.map fun b => if b = 0 then 1 else b

-- ---------------------------------------------------------------------------
-- server_greeting
-- ---------------------------------------------------------------------------

def capabilityLongPassword : Nat := 1

def capabilityProtocol41 : Nat := 512

def capabilitySecureConnection : Nat := 32768

def capabilityPluginAuth : Nat := 2 ^ 19

def capabilityConnectWithDb : Nat := 8

def capabilitySsl : Nat := 2 ^ 11

def serverVersion : Str := "8.0.32-RunAlexDB"

def authPlugin : Str := "mysql_native_password"

/-- HandshakeV10 with these capabilities. -/
def greetingWith (caps serverId : Nat) (authData : Bytes) : Bytes :=
  10 :: bytes serverVersion ++ 0 :: toLe 4 serverId ++ authData.take 8 ++ 0 :: toLe 2 (caps % 2 ^ 16) ++
    0x21 :: toLe 2 2 ++ toLe 2 (caps / 2 ^ 16) ++ 21 :: List.replicate 10 0 ++ authData.drop 8 ++
    0 :: bytes authPlugin ++ [0]

def serverGreeting (serverId : Nat) (authData : Bytes) : Bytes :=
  greetingWith (capabilityLongPassword ||| capabilityProtocol41 ||| capabilitySecureConnection |||
    capabilityPluginAuth) serverId authData

def serverGreetingTls (serverId : Nat) (authData : Bytes) : Bytes :=
  greetingWith (capabilityLongPassword ||| capabilityProtocol41 ||| capabilitySecureConnection |||
    capabilityPluginAuth ||| capabilitySsl) serverId authData

/-- The greeting of `handle_connection`: TLS is offered when there is an acceptor. -/
def greetingOf (tls : Bool) (scramble : Bytes) : Bytes :=
  if tls then serverGreetingTls 1 scramble else serverGreeting 1 scramble

end RunAlexDb
