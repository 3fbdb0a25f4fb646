import TacoBack.Lib.Json

/-! # Documents -/

namespace TacoBack

/-- `Users`. A field of text is `none` where it is absent or null. `tid` is a path of mixed type, which
keeps any value as it came, and is `none` only where it is absent. -/
structure Users where
  _id : String
  tid : Option Json
  nick : Option String
  description : Option String
  password : Option String
  email : Option String
  sex : Option String
  deriving DecidableEq

/-- `Questions`. `uid` is of mixed type too, and is always there. -/
structure Questions where
  _id : String
  uid : Json
  question : Option Json
  deriving DecidableEq

structure Friend where
  source : String
  target : String
  tag : Option String
  deriving DecidableEq

structure BlackList where
  source : String
  target : String
  deriving DecidableEq

end TacoBack
