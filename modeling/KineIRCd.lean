import KineIRCd.Admission
import KineIRCd.AntiSpoof
import KineIRCd.Charsets
import KineIRCd.Clock
import KineIRCd.Delivery
import KineIRCd.Escapes
import KineIRCd.FileLog
import KineIRCd.FinalNewline
import KineIRCd.Framing
import KineIRCd.Goodbye
import KineIRCd.HandOver
import KineIRCd.Identities
import KineIRCd.Isupport
import KineIRCd.LanguageChoice
import KineIRCd.LanguageLists
import KineIRCd.Latin1
import KineIRCd.ListenerPorts
import KineIRCd.Logging
import KineIRCd.LongReplies
import KineIRCd.Mail
import KineIRCd.Messages
import KineIRCd.NameGrammar
import KineIRCd.NicknameSpace
import KineIRCd.Nicknames
import KineIRCd.Outbound
import KineIRCd.OutputStream
import KineIRCd.Ownership
import KineIRCd.Presence
import KineIRCd.ProtocolTable
import KineIRCd.Refusals
import KineIRCd.Registrants
import KineIRCd.RegistrarAccesses
import KineIRCd.Registrations
import KineIRCd.ReplySizes
import KineIRCd.RequestLimits
import KineIRCd.RoundTrips
import KineIRCd.Sections
import KineIRCd.Select
import KineIRCd.ServerTime
import KineIRCd.ServerUsers
import KineIRCd.ShortNames
import KineIRCd.StaffStatus
import KineIRCd.TagCounts
import KineIRCd.TagMaps
import KineIRCd.Traffic
import KineIRCd.Turns
import KineIRCd.UserAccesses
import KineIRCd.Users
import KineIRCd.Wakeup
import KineIRCd.Whois
