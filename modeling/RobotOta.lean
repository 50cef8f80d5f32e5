import RobotOta.BitField
import RobotOta.ByteBuffer
import RobotOta.ShiftRegister
import RobotOta.CanFrameCodec
import RobotOta.DocumentedSort
import RobotOta.EventRun
import RobotOta.CanReassembly
import RobotOta.CanReassemblySources
import RobotOta.CanFragmentation
import RobotOta.FragmentationCapacity
import RobotOta.CanSend
import RobotOta.FragmentWindow
import RobotOta.CanReassemblyWindow
import RobotOta.CanReassemblyBuffer
import RobotOta.CanReassemblyCompletion
import RobotOta.ScanHex
import RobotOta.HexLoader
import RobotOta.HexRecords
import RobotOta.HexIntegrity
import RobotOta.HexAddresses
import RobotOta.SegmentImage
import RobotOta.ElementCompaction
import RobotOta.ElementImage
import RobotOta.RecordImage
import RobotOta.RequestProgram
import RobotOta.RecordedRun
import RobotOta.AttemptRecords
import RobotOta.CommandLine
import RobotOta.SeparatedText
import RobotOta.BoardUpgrade
import RobotOta.UpgradeTranscript
import RobotOta.AnswerLink
import RobotOta.UpgradeAgreement
import RobotOta.UpgradeOrder
import RobotOta.ChunkVerification
import RobotOta.ReceiveList
import RobotOta.QueuedPackets
import RobotOta.SendTermination
import RobotOta.BlockDevice
import RobotOta.PartitionReaders
import RobotOta.ImageCopy
import RobotOta.CheckedMemory
import RobotOta.LoaderTable
import RobotOta.LoaderConversion
import RobotOta.LoaderWriting
import RobotOta.DownloadProgressRuns
import RobotOta.RecoveryRequests
import RobotOta.RkImageInstall
import RobotOta.RecoveryMain
import RobotOta.UpdateCommand
import RobotOta.PackageSelection
import RobotOta.BoardFailure
import RobotOta.InstallRestart
import RobotOta.ArgumentRestart
import RobotOta.OtaDownload
import RobotOta.DownloadTask
import RobotOta.DownloadBookkeeping
import RobotOta.DownloadedPackage
import RobotOta.ObserverRegistrations
import RobotOta.InstallAttempt
import RobotOta.FileTree
import RobotOta.UnzipFile
import RobotOta.UnzipTree
import RobotOta.UnzipArchive
import RobotOta.UnzipCleanup
import RobotOta.PackageCheck
import RobotOta.PackageDigest
import RobotOta.BurstErrors
import RobotOta.LeastSearch
import RobotOta.BitTiming
import RobotOta.BitTimingSearch
import RobotOta.BitTimingOptimum
import RobotOta.CanDevice
import RobotOta.CanDeviceRuns
import RobotOta.CanDeviceEcho
import RobotOta.CanDeviceSettings
import RobotOta.StreamingUpdate
import RobotOta.PackageSignature
import RobotOta.RotatingSlots
import RobotOta.RecoveryLogs
import RobotOta.RecoveryLogFiles
import RobotOta.RecoveryLogRuns
import RobotOta.RecoveryLogArchive
import RobotOta.InstalledImage
import RobotOta.ImageCheck
import RobotOta.ImageRequests
import RobotOta.RecordedSequence
import RobotOta.UpgradeSession
import RobotOta.SdBootConfig
import RobotOta.SdBootRendering
import RobotOta.ReceiveThread
import RobotOta.ReceiveThreadRuns
import RobotOta.ReceiveThreadFrames
import RobotOta.PackageBrowser
import RobotOta.RecordedKnowledge
import RobotOta.PackageBrowserRuns
