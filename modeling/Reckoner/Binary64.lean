import Reckoner.Arithmetic
import Reckoner.Binary64.Reading
import Reckoner.Binary64.Shortest

namespace Reckoner

/-- Double precision. Each operation gives the number nearest to the exact result, and dividing by
zero gives an infinity or the value that is not a number. -/
instance : Arithmetic Float where
  read? := Binary64.read?
  render := Binary64.render

end Reckoner
