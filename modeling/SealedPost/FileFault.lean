/-! Why a file could not be read or written. -/
namespace SealedPost

inductive FileFault where
  | notFound
  | isDirectory
  | notDirectory
  | nameTooLong
  | zeroInPath
  | notText
  | stated (reason : String)
deriving DecidableEq

def notTextMessage : String := "stream did not contain valid UTF-8"

def FileFault.message : FileFault → String
  | .notFound => "No such file or directory (os error 2)"
  | .isDirectory => "Is a directory (os error 21)"
  | .notDirectory => "Not a directory (os error 20)"
  | .nameTooLong => "File name too long (os error 36)"
  | .zeroInPath => "file name contained an unexpected NUL byte"
  | .notText => notTextMessage
  | .stated reason => reason

end SealedPost
