/-!
# Errors of the system

What can go wrong when a file is touched or a program is started, each with the system's text for
it. Errors that the system numbers show their number.
-/

set_option autoImplicit false

namespace TranscodingEngines

inductive SystemError where
  | notPermitted
  | noSuchEntry
  | execFormat
  | badStream
  | permissionDenied
  | busy
  | alreadyExists
  | notDirectory
  | isDirectory
  | invalidArgument
  | noSpace
  | brokenPipe
  | nameTooLong
  | notEmpty
  | tooManyLinks
  | nulInName
  | nulInData
  | notText
  deriving DecidableEq, Repr

namespace SystemError

def wording : SystemError → String × Option Nat
  | notPermitted => ("Operation not permitted", some 1)
  | noSuchEntry => ("No such file or directory", some 2)
  | execFormat => ("Exec format error", some 8)
  | badStream => ("Bad file descriptor", some 9)
  | permissionDenied => ("Permission denied", some 13)
  | busy => ("Device or resource busy", some 16)
  | alreadyExists => ("File exists", some 17)
  | notDirectory => ("Not a directory", some 20)
  | isDirectory => ("Is a directory", some 21)
  | invalidArgument => ("Invalid argument", some 22)
  | noSpace => ("No space left on device", some 28)
  | brokenPipe => ("Broken pipe", some 32)
  | nameTooLong => ("File name too long", some 36)
  | notEmpty => ("Directory not empty", some 39)
  | tooManyLinks => ("Too many levels of symbolic links", some 40)
  | nulInName => ("file name contained an unexpected NUL byte", none)
  | nulInData => ("nul byte found in provided data", none)
  | notText => ("stream did not contain valid UTF-8", none)

def words (cause : SystemError) : String := cause.wording.1

def message (cause : SystemError) : String :=
  match cause.wording with
  | (text, some number) => text ++ " (os error " ++ toString number ++ ")"
  | (text, none) => text

end SystemError

end TranscodingEngines
