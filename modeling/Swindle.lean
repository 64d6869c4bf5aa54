import Swindle.Boot.Button
import Swindle.Boot.Cut
import Swindle.Boot.Header
import Swindle.Boot.Image
import Swindle.Boot.Integrity
import Swindle.Boot.Reads
import Swindle.Dfu.LayoutBuffer
import Swindle.Dfu.Report
import Swindle.Dfu.Secrecy
import Swindle.Dfu.Wipe
import Swindle.Download.Command
import Swindle.Download.Payload
import Swindle.Download.Sectors
import Swindle.Download.Upload
import Swindle.Flash.Width
import Swindle.Session.Enumerate
import Swindle.Session.Verify
import Swindle.Usb.Allocation
import Swindle.Usb.Armed
import Swindle.Usb.Completion
import Swindle.Usb.Overread
import Swindle.Usb.PacketMemory
import Swindle.Usb.Provenance
import Swindle.Usb.Refusal
import Swindle.Usb.Residue
import Swindle.Usb.Toggle
