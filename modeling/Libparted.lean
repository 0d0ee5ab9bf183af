import Libparted.GeometryCheck
import Libparted.Labels.Refusal
import Libparted.Labels.Dvh
import Libparted.Labels.Dos.Geometry
import Libparted.Labels.Gpt.Repair
import Libparted.Labels.Amiga.Checksum
import Libparted.Labels.Probes
import Libparted.Labels.Mac.Flags
import Libparted.Arch.Convergence
import Libparted.Fs.Fat.BootSector
import Libparted.Fs.Fat.RootDir
import Libparted.Fs.Hfs.JournalMove
import Libparted.Fs.Hfs.SaveAllocation
import Libparted.Parted.CommandLine
import Libparted.Parted.StrList
import Libparted.Parted.Snap
