import TmsCores.Bus.Flat
import TmsCores.Proofs.Tms7000.Ledger
import TmsCores.Proofs.Tms7000.TimeSlicing
import TmsCores.Proofs.Tms9900.Ledger
import TmsCores.Proofs.Tms9900.TimeSlicing

namespace TmsCores

end TmsCores
