import Gearsdk.Qlogfile

/-! The lines of the statistics log. -/
namespace Gearsdk
open Qstring

/-- What an assignment leaves in a `qstring`. -/
abbrev Assigned := { bytes : Qstring // Clean bytes }

def Assigned.assign (text : Qstring) : Assigned := ⟨cString text, cString_clean text⟩

structure Tm where
  tmYear : Nat
  tmMon : Nat
  tmMday : Nat
  tmHour : Nat
  tmMin : Nat
  tmSec : Nat

/-- `%04d` and `%02d`. -/
def Qstring.padded (width n : Nat) : Qstring :=
  List.replicate (width - (unsigned n).length) 48 ++ unsigned n

/-- The text is shorter than its buffer for every year that an `int` holds. -/
def getTimeUtcPostgresqlFormat (timeInfo : Tm) : Qstring :=
  padded 4 (timeInfo.tmYear + 1900) ++ literal "-" ++ padded 2 (timeInfo.tmMon + 1) ++
    literal "-" ++ padded 2 timeInfo.tmMday ++
    literal " " ++ padded 2 timeInfo.tmHour ++ literal ":" ++ padded 2 timeInfo.tmMin ++
      literal ":" ++ padded 2 timeInfo.tmSec

structure Qstatslogger where
  clientSession : Assigned := .assign []
  clientVersion : Assigned := .assign []
  clientPid : Assigned := .assign []
  installOs : Assigned := .assign []
  deviceName : Assigned := .assign []
  deviceModel : Assigned := .assign []
  appId : Assigned := .assign []
  totalRam : Int := 0

/-- The arguments of `server_count`. -/
structure ServerCount where
  counter : Qstring
  countVal : Int
  session : Qstring
  pid : Qstring
  version : Qstring
  epic : Qstring
  myth : Qstring
  legend : Qstring
  story : Qstring
  message : Qstring := []

/-- The arguments of `client_count`. -/
structure ClientCount where
  counter : Qstring
  countVal : Int
  epic : Qstring
  myth : Qstring
  legend : Qstring
  story : Qstring
  message : Qstring := []

namespace Qstatslogger

def init (logger : Qstatslogger) (installOs deviceName deviceModel appId : Qstring)
    (totalRam : Int) : Qstatslogger :=
  { logger with
    installOs := .assign installOs
    deviceName := .assign deviceName
    deviceModel := .assign deviceModel
    appId := .assign appId
    totalRam }

def setClientSession (logger : Qstatslogger) (sessionStr : Qstring) : Qstatslogger :=
  { logger with clientSession := .assign sessionStr }

def setClientVersion (logger : Qstatslogger) (versionStr : Qstring) : Qstatslogger :=
  { logger with clientVersion := .assign versionStr }

def setClientPid (logger : Qstatslogger) (pidStr : Qstring) : Qstatslogger :=
  { logger with clientPid := .assign pidStr }

/-- `buffer += seperator` and `buffer += field`, field by field. -/
def separated (buffer : Qstring) (fields : List Qstring) : Qstring :=
  fields.foldl (fun buffer field => buffer ++ literal "|" ++ field) buffer

/-- The version written is the one of the client, whatever the arguments are. -/
def serverCountInternal (logger : Qstatslogger) (record : ServerCount)
    (serverTstamp utcTime : Qstring) : Qstring :=
  separated (literal "count")
    [record.counter, signed record.countVal, record.session, record.pid, logger.clientVersion.1,
      record.epic, record.myth, record.legend, record.story, logger.installOs.1, serverTstamp,
      literal "NULL", utcTime, record.message, logger.deviceName.1, logger.deviceModel.1,
      signed logger.totalRam, logger.appId.1]

def serverCount (logger : Qstatslogger) (record : ServerCount) (now : Tm) (utcTime : Int) :
    Qstring :=
  logger.serverCountInternal record (getTimeUtcPostgresqlFormat now) (signed utcTime)

def clientCount (logger : Qstatslogger) (record : ClientCount) (now : Tm) (utcTime : Int) :
    Qstring :=
  separated (literal "count")
    [record.counter, signed record.countVal, logger.clientSession.1, logger.clientPid.1,
      logger.clientVersion.1, record.epic, record.myth, record.legend, record.story,
      logger.installOs.1, literal "NULL", getTimeUtcPostgresqlFormat now, signed utcTime,
      record.message, logger.deviceName.1, logger.deviceModel.1, signed logger.totalRam,
      logger.appId.1]

end Qstatslogger
end Gearsdk
