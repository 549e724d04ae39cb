import Tar2Sqfs.Sqfs
import Tar2Sqfs.IdTable
import Tar2Sqfs.FsTree
import Tar2Sqfs.Serialize.Basic
import Tar2Sqfs.Serialize.Order
import Tar2Sqfs.Serialize.Ids
import Tar2Sqfs.Serialize.Inodes
import Tar2Sqfs.Serialize.Entries
import Tar2Sqfs.Serialize.Super
import Tar2Sqfs.Getopt.Basic
import Tar2Sqfs.Args
import Tar2Sqfs.Getopt.Reference
import Tar2Sqfs.Getopt.Progress
import Tar2Sqfs.Getopt.Reachable
import Tar2Sqfs.TarBall.Basic
import Tar2Sqfs.TarBall.Sparse
import Tar2Sqfs.TarBall.Stream
import Tar2Sqfs.TarBall.Records
import Tar2Sqfs.Main
import Tar2Sqfs.ProcessArgs.Basic
import Tar2Sqfs.ProcessArgs.Loop
import Tar2Sqfs.ProcessArgs.Strings
import Tar2Sqfs.PathSep
