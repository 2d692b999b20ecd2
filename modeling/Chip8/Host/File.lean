/-! Why a file cannot be read. -/
namespace Chip8

inductive FileFault
  | notFound
  | notDirectory
  | isDirectory
  | nameTooLong
  /-- The path has a zero byte in it. -/
  | zeroByte
  | other (reason : String)
  deriving DecidableEq, Repr

def FileFault.message : FileFault → String
  | notFound => "No such file or directory (os error 2)"
  | notDirectory => "Not a directory (os error 20)"
  | isDirectory => "Is a directory (os error 21)"
  | nameTooLong => "File name too long (os error 36)"
  | zeroByte => "file name contained an unexpected NUL byte"
  | other reason => reason

end Chip8
