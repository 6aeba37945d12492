import Cubiboot.Lib.Run
import Cubiboot.Lib.DirectMapped
import Cubiboot.Lib.Dialogue
import Cubiboot.SectorCache
import Cubiboot.SectorCacheCoherence
import Cubiboot.FileLayer
import Cubiboot.GameInfo
import Cubiboot.Classification
import Cubiboot.FileSessions
import Cubiboot.Isolation
import Cubiboot.Lib.Slots
import Cubiboot.Entry
import Cubiboot.Loader
import Cubiboot.Grid
import Cubiboot.Window
import Cubiboot.Background
import Cubiboot.Worker
import Cubiboot.DiscBanner
import Cubiboot.Browser
import Cubiboot.Bypass
import Cubiboot.Cursor
import Cubiboot.Confirm
import Cubiboot.Pending
import Cubiboot.CardHook
import Cubiboot.BannerCache
import Cubiboot.BannerLoad
import Cubiboot.BannerDma
import Cubiboot.GridAnim
import Cubiboot.Pool
import Cubiboot.Lib.Threaded
import Cubiboot.Pmalloc
import Cubiboot.PmallocSpec
import Cubiboot.Heap
import Cubiboot.Dol
import Cubiboot.Elf
import Cubiboot.Handoff
import Cubiboot.Patching
import Cubiboot.Lib.Trim
import Cubiboot.Navigation
import Cubiboot.KeptList
import Cubiboot.Lib.Fields
import Cubiboot.DeviceOrder
import Cubiboot.DriveLine
import Cubiboot.ReadData
import Cubiboot.Listing
import Cubiboot.Lib.Sweep
import Cubiboot.GridCapacity
import Cubiboot.Lib.Partners
import Cubiboot.MultiDisc
import Cubiboot.Lib.Table
import Cubiboot.FstWalk
import Cubiboot.OwnBytes
import Cubiboot.BannerSearch
import Cubiboot.Lib.Polling
import Cubiboot.SameBanner
import Cubiboot.RecentList
import Cubiboot.LastPlayed
import Cubiboot.Lib.Chars
import Cubiboot.Marquee
import Cubiboot.Description
import Cubiboot.ScrollOffsets
import Cubiboot.BootRoute
import Cubiboot.Chainload
import Cubiboot.SdRead
import Cubiboot.GcodeRead
import Cubiboot.Title
import Cubiboot.Lib.Keystream
import Cubiboot.Scrambler
import Cubiboot.Lib.Pack
import Cubiboot.PicobootPayload
import Cubiboot.Lib.Lanes
import Cubiboot.Uf2Merge
import Cubiboot.Lib.Leads
import Cubiboot.Lib.Leases
import Cubiboot.FlippyHandles
import Cubiboot.HandleBalance
