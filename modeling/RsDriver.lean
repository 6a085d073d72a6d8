import RsDriver.Arith
import RsDriver.Decoder32.Basic
import RsDriver.Decoder32.Msop
import RsDriver.Decoder32.Azimuth
import RsDriver.Decoder32.Difop
import RsDriver.Decoder32.Session
import RsDriver.Decoder32.CalibrationFile
import RsDriver.Decoder32.CalibrationText
import RsDriver.Decoder32.Safety
import RsDriver.Decoder32.Lifetime
import RsDriver.Decoder32.Output
import RsDriver.DecoderRS32.Basic
import RsDriver.DecoderRS32.Msop
import RsDriver.DecoderRS32.Difop
import RsDriver.DecoderRS32.Session
import RsDriver.DecoderRS32.Legacy
import RsDriver.DecoderRS32.Lifetime
