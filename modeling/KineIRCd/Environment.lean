import KineIRCd.Names
/-!
# The environment of the protocols

What the protocol modules get from outside: the configuration, the character
set conversions, the language files, the protocol table and random tokens.
-/
namespace KineIRCd

/-- `Listener::Flags`: what the port a connection came in on accepts. -/
structure ListenerFlags where
  allowNetworks : Bool
  allowServers : Bool
  allowServices : Bool
  allowUsers : Bool
  deriving DecidableEq

/-- A port that accepts every type. -/
def ListenerFlags.all : ListenerFlags := ⟨true, true, true, true⟩

/-- `ProtocolInfo::Type`, without the types no lookup asks for. -/
inductive ProtocolType where
  | network
  | server
  | user
  deriving DecidableEq

/-- A protocol a lookup can find. Only the irc2user module overrides
`createProtocol`; the base class answers with a null pointer. -/
inductive ProtocolInfo where
  | irc2user
  | unavailable
  deriving DecidableEq

/-- The language tags the modelled functions ask for. -/
inductive LangTag where
  | irc2_ERR_ALREADYREGISTERED
  | irc2_ERR_CANNOTSENDTONICK_UNEXPECTED
  | irc2_ERR_CANNOTSENDTONICK_UNRECEPTIVE
  | irc2_ERR_DISABLED
  | irc2_ERR_ERRONEUSNICKNAME
  | irc2_ERR_NEEDMOREPARAMS
  | irc2_ERR_NICKNAMEINUSE
  | irc2_ERR_NOLANGUAGE
  | irc2_ERR_NONICKNAMEGIVEN
  | irc2_ERR_NOOPERHOST
  | irc2_ERR_NOORIGIN
  | irc2_ERR_NOPRIVILEGES
  | irc2_ERR_NOPRIVILEGES_SPECIFIC
  | irc2_ERR_NORECIPIENT
  | irc2_ERR_NOSUCHCHANNEL_UNSUPPORTED_TYPE
  | irc2_ERR_NOSUCHNICK
  | irc2_ERR_NOSUCHNICK_OR_CHANNEL
  | irc2_ERR_NOSUCHSERVER
  | irc2_ERR_NOSUCHSERVICE
  | irc2_ERR_NOSUCHSERVICE_NOT_SERVICE
  | irc2_ERR_NOTEXTTOSEND
  | irc2_ERR_NOTONCHANNEL
  | irc2_ERR_TEXTTOOSHORT
  | irc2_ERR_TOOMANYLANGUAGES
  | irc2_ERR_TOOMANYTARGETS
  | irc2_ERR_UNKNOWNCOMMAND
  | irc2_ERR_UNKNOWNERROR
  | irc2_RPL_CREATED
  | irc2_RPL_ENDOFNAMES
  | irc2_RPL_ENDOFSTATS
  | irc2_RPL_ENDOF_GENERIC_LANGUAGE
  | irc2_RPL_ENDOF_GENERIC_NETWORKS
  | irc2_RPL_ISUPPORT
  | irc2_RPL_NOWAWAY_WITH_MESSAGE
  | irc2_RPL_REHASHING
  | irc2_RPL_UNAWAY
  | irc2_RPL_WELCOME
  | irc2_RPL_YOURHOST
  | irc2_RPL_YOURLANGUAGEIS
  | irc2registrar_ERROR_BAD_PONG
  | irc2registrar_ERROR_BROKEN_REGISTRATION_DATA
  | irc2registrar_ERROR_CONN_DISALLOWED_IIRC
  | irc2registrar_ERROR_CONN_DISALLOWED_SERVER
  | irc2registrar_ERROR_CONN_DISALLOWED_SERVICE
  | irc2registrar_ERROR_CONN_DISALLOWED_USER
  | irc2registrar_ERROR_PROTOCOL_INIT_FAIL
  | irc2registrar_ERROR_PROTOCOL_UNAVAILABLE_IIRC
  | irc2registrar_ERROR_PROTOCOL_UNAVAILABLE_SERVER
  | irc2registrar_ERROR_PROTOCOL_UNAVAILABLE_SERVICE
  | irc2registrar_ERROR_PROTOCOL_UNAVAILABLE_USER
  | irc2registrar_ERROR_PROTOCOL_UNKNOWN
  | irc2registrar_NOTICE_ANTI_SPOOF_PING_HELP
  | irc2user_ERROR_CLOSING_LINK_QUIT
  | irc2user_ERROR_CLOSING_LINK_QUIT_WITH_REASON
  | irc2user_HELP_END
  deriving DecidableEq

/-- A user's languages in order of preference, by code. `none` is the null language. -/
abbrev LanguageList := List (Option Octets)

structure Env where
  maxNickNameLength : Nat
  maxRealNameLength : Nat
  maxDescriptionLength : Nat
  maxTargets : UInt8
  maxLanguages : UInt8
  /-- `myServer().getName()`. -/
  serverName : WString
  version : Octets
  buildTimeFull : Octets
  /-- `Socket::getReadBlockSize()`. -/
  readBlockSize : Nat
  /-- The two conversions of a protocol, for text on which they return. `Conversion`
  says which that is. -/
  localiseStr : Octets → WString
  delocaliseStr : WString → Octets
  /-- `languages().get()`: the text of a tag, with its parameters filled in. -/
  lang : LanguageList → LangTag → List WString → WString
  /-- `languages().findByCode()`: the code of the language found. -/
  findByCode : Octets → Option Octets
  defaultLanguage : Option Octets
  /-- What `Daemon::findProtocol` finds in its table, which `ProtocolTable` models.
  Runs in which somebody becomes a user take a table where the user protocol is found. -/
  findProtocol : ProtocolType → Octets → Option ProtocolInfo
  /-- `String::toLong` and `String::toInt`. -/
  toLong : Octets → Int
  toInt : Octets → Int
  /-- `baseXStr` of the n-th value that `rand()` gives. -/
  token : Nat → Octets
  token_ne_nil : ∀ n, token n ≠ []

/-- A small server: text is ASCII and every message reads the same. -/
def Env.sample : Env where
  maxNickNameLength := 9
  maxRealNameLength := 50
  maxDescriptionLength := 50
  maxTargets := 4
  maxLanguages := 2
  serverName := wide "irc.kine"
  version := octets "1"
  buildTimeFull := octets "today"
  readBlockSize := 512
  localiseStr s := s.map (·.toUInt32)
  delocaliseStr s := s.map (·.toUInt8)
  lang _ _ _ := wide "text"
  findByCode code := if code = octets "en" then some code else none
  defaultLanguage := some (octets "en")
  findProtocol type name := if type = .user ∧ name = octets "IRC-2" then some .irc2user else none
  toLong _ := 0
  toInt _ := 0
  token n := octets "Z" ++ decimal n
  token_ne_nil n := by simp [octets]

/-- `Languages::toWideStr`: octets widen as signed characters. -/
def toWideStr (s : Octets) : WString := s.map (fun c => if c < 0x80 then c.toUInt32 else c.toUInt32 ||| 0xFFFFFF00)

end KineIRCd
