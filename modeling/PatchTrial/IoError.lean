/-!
Why the machine refused an operation: an error number of the operating system, or a reason that has
no number.
-/
namespace PatchTrial

inductive IoError
  /-- The operating system reported this error number. -/
  | os (number : Nat)
  /-- A reason without a number. -/
  | other (reason : String)
  deriving DecidableEq, Repr

namespace IoError

/-- No such file or directory. -/
def notFound : IoError := .os 2
/-- No such group or process. -/
def noSuchTarget : IoError := .os 3
/-- The file is no program the machine can run. -/
def notRunnable : IoError := .os 8
def denied : IoError := .os 13
def exists' : IoError := .os 17
def notFolder : IoError := .os 20
def isFolder : IoError := .os 21
/-- The argument makes no sense to the call. -/
def invalid : IoError := .os 22
def noSpace : IoError := .os 28
def nameTooLong : IoError := .os 36
def notEmpty : IoError := .os 39
def tooManyLinks : IoError := .os 40

/-- The operating system's words for its error numbers. -/
def osText : Nat → String
  | 1 => "Operation not permitted"
  | 2 => "No such file or directory"
  | 3 => "No such process"
  | 4 => "Interrupted system call"
  | 5 => "Input/output error"
  | 6 => "No such device or address"
  | 7 => "Argument list too long"
  | 8 => "Exec format error"
  | 9 => "Bad file descriptor"
  | 10 => "No child processes"
  | 11 => "Resource temporarily unavailable"
  | 12 => "Cannot allocate memory"
  | 13 => "Permission denied"
  | 14 => "Bad address"
  | 15 => "Block device required"
  | 16 => "Device or resource busy"
  | 17 => "File exists"
  | 18 => "Invalid cross-device link"
  | 19 => "No such device"
  | 20 => "Not a directory"
  | 21 => "Is a directory"
  | 22 => "Invalid argument"
  | 23 => "Too many open files in system"
  | 24 => "Too many open files"
  | 25 => "Inappropriate ioctl for device"
  | 26 => "Text file busy"
  | 27 => "File too large"
  | 28 => "No space left on device"
  | 29 => "Illegal seek"
  | 30 => "Read-only file system"
  | 31 => "Too many links"
  | 32 => "Broken pipe"
  | 33 => "Numerical argument out of domain"
  | 34 => "Numerical result out of range"
  | 35 => "Resource deadlock avoided"
  | 36 => "File name too long"
  | 37 => "No locks available"
  | 38 => "Function not implemented"
  | 39 => "Directory not empty"
  | 40 => "Too many levels of symbolic links"
  | 42 => "No message of desired type"
  | 61 => "No data available"
  | 62 => "Timer expired"
  | 71 => "Protocol error"
  | 75 => "Value too large for defined data type"
  | 84 => "Invalid or incomplete multibyte or wide character"
  | 88 => "Socket operation on non-socket"
  | 95 => "Operation not supported"
  | 98 => "Address already in use"
  | 103 => "Software caused connection abort"
  | 104 => "Connection reset by peer"
  | 107 => "Transport endpoint is not connected"
  | 110 => "Connection timed out"
  | 111 => "Connection refused"
  | 113 => "No route to host"
  | 122 => "Disk quota exceeded"
  | 125 => "Operation canceled"
  | number => "Unknown error " ++ toString number

/-- What an error says: its words and, if it has one, its number. -/
def message : IoError → String
  | .os number => osText number ++ " (os error " ++ toString number ++ ")"
  | .other reason => reason

end IoError
end PatchTrial
